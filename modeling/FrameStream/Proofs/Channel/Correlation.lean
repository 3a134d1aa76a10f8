import FrameStream.Proofs.Channel.Admission
import FrameStream.Proofs.Request.Fields

/-!
# Which key a rejection carries

A rejection carries the key of its request where the request could be read. So a text that gives its key in one member
and is refused for anything that the rules find, or because the slot is taken, is refused under that key. A text that
cannot be read, be it only for another member, is refused without a key.
-/

namespace FrameStream

open Json

/-- A request that is written as an object and gives its key as a text in just one member. The other members may be
anything. -/
structure KeyedText (key : String) where
  front : Blanks
  es : List Entry
  slot : Slot
  spelling : List Piece
  es' : List Entry
  gap : Blanks
  back : Blanks
  written : ∀ e ∈ es ++ es', Written e.value
  named : spelled slot.name = some "key"
  only : ∀ e ∈ es ++ es', spelled e.name ≠ some "key"
  spells : spelled spelling = some key

namespace KeyedText

variable {key : String}

def bytes (t : KeyedText key) : Bytes :=
  t.front.bytes ++ (objectBytes (t.es ++ t.slot.entry (Byte.quoteMark :: enclosed t.spelling) :: t.es') t.gap ++
    t.back.bytes)

/-- What is read of the text has its key. -/
theorem key_of_parse (t : KeyedText key) {r : Request} (h : Request.parse t.bytes = .ok r) : r.key = some key := by
  have hread := Request.toOption_parse (Record.takes_object (Request.local_record 126)
    (written_slot t.written t.slot (.string t.spelling)) t.gap) t.front t.back
  rw [← bytes, h] at hread
  obtain ⟨s, hs, rfl⟩ := Option.map_eq_some_iff.mp hread.symm
  rw [List.foldlM_append] at hs
  obtain ⟨u, -, hs⟩ := Option.bind_eq_some_iff.mp hs
  rw [List.foldlM_cons] at hs
  obtain ⟨v, hv, hs⟩ := Option.bind_eq_some_iff.mp hs
  have hrest := Request.key_foldlM (fun e he => t.only e (List.mem_append_right _ he)) hs
  rw [hrest, Request.key_enter? t.named hv, t.spells]

end KeyedText

theorem Request.exists_report {source : Bytes} {x : Refusal} (h : parse source = .error x) :
    ∃ report, x = .malformed report := by
  unfold parse at h
  split at h
  · cases h
  · cases h
    exact ⟨_, rfl⟩

open Docket

/-- A rejection has the key of the request that was read; if the text could not be read, it has none and says what is
wrong with the text. -/
theorem Docket.Sound.of_rejected {d : Docket} {config : ServiceConfig} {registry : Registry} {l : Letter}
    {key : Option String} {reason : String} {text : Bytes} (h : d.Sound config registry)
    (hletter : d.letter? l = some (.request text)) (hheard : .rejected key reason ∈ d.heard l) :
    (∃ r, Request.parse text = .ok r ∧ key = r.key) ∨
    (∃ x, Request.parse text = .error x ∧ key = none ∧ reason = x.error.message) := by
  by_cases hjob : l ∈ d.origins
  · obtain ⟨k, hk⟩ := List.mem_iff_getElem?.mp hjob
    obtain ⟨j, -, hstands⟩ := h.answered.exists_job h.wired hk
    obtain ⟨text', r, hletter', hparse, hspeech⟩ := hstands.speech
    rw [hletter] at hletter'
    cases hletter'
    exact .inl ⟨r, hparse, (hspeech.of_rejected hheard).1⟩
  · have hspoken : d.heard l ≠ [] := List.ne_nil_of_mem hheard
    cases h.answered.rest l hjob with
    | coming later silent => exact absurd silent hspoken
    | declining last busy => exact absurd (h.silent_of_busy last busy) hspoken
    | skipped taken silent other => exact absurd silent hspoken
    | unheard taken silent gone => exact absurd silent hspoken
    | declined taken text' m request declines said =>
      rw [hletter] at request
      cases request
      rw [said] at hheard
      have hm := List.mem_singleton.mp hheard
      cases declines with
      | malformed x parsed =>
        cases hm
        exact .inr ⟨x, parsed, rfl, rfl⟩
      | unstartable r x parsed =>
        cases hm
        exact .inl ⟨r, parsed, rfl⟩

/-- A refused text keeps its key exactly if it could be read. -/
theorem rejection_keeps_key_of_read {es : List ServerEvent} {d : Docket} {config : ServiceConfig}
    {registry : Registry} {depth : Nat} {l : Letter} {k : String} {t : KeyedText k} {key : Option String}
    {reason : String} (hes : (start config registry depth).run? es = some d)
    (hletter : d.letter? l = some (.request t.bytes)) (hheard : .rejected key reason ∈ d.heard l) :
    (key = some k ∧ ∃ r, Request.parse t.bytes = .ok r) ∨
    (key = none ∧ ∃ report, Request.parse t.bytes = .error (.malformed report) ∧
      reason = (Refusal.malformed report).error.message) := by
  have hsound := sound_run (sound_start config registry depth) hes
  rcases hsound.of_rejected hletter hheard with ⟨r, hr, rfl⟩ | ⟨x, hx, rfl, rfl⟩
  · exact .inl ⟨t.key_of_parse hr, r, hr⟩
  · obtain ⟨report, rfl⟩ := Request.exists_report hx
    exact .inr ⟨rfl, report, hx, rfl⟩

/-- A key beside a model that is no text. -/
def mistyped : KeyedText "a" where
  front := Blanks.none
  es := []
  slot := ⟨Blanks.none, plainly (Bytes.ofText "key") (by decide), Blanks.none, Blanks.none, Blanks.none⟩
  spelling := plainly (Bytes.ofText "a") (by decide)
  es' := [⟨Blanks.none, plainly (Bytes.ofText "model") (by decide), Blanks.none, Byte.letterT :: restOfTrue,
    Blanks.none⟩]
  gap := Blanks.none
  back := Blanks.none
  written := List.forall_mem_singleton.mpr .wordTrue
  named := by decide
  only := List.forall_mem_singleton.mpr (by decide)
  spells := by decide

/-- The text arrives and is refused. -/
def refusedUnread : List ServerEvent :=
  [.accepted "c", .arrived 0 (.request mistyped.bytes), .taken 0, .refused 0]

theorem run_refusedUnread : ∃ d reason, (start {} Registry.builtins 4).run? refusedUnread = some d ∧
    d.letter? ⟨0, 0⟩ = some (.request mistyped.bytes) ∧ d.heard ⟨0, 0⟩ = [.rejected none reason] :=
  ⟨_, _, rfl, rfl, rfl⟩

/-- The text is refused without its key, for a model that is no text. -/
theorem mistyped_refused_without_key : ∃ d report, (start {} Registry.builtins 4).run? refusedUnread = some d ∧
    Request.parse mistyped.bytes = .error (.malformed report) ∧
    d.heard ⟨0, 0⟩ = [.rejected none (Refusal.malformed report).error.message] := by
  obtain ⟨d, reason, hes, hletter, hheard⟩ := run_refusedUnread
  have hmem : .rejected none reason ∈ d.heard ⟨0, 0⟩ := by
    rw [hheard]
    exact List.mem_singleton.mpr rfl
  rcases rejection_keeps_key_of_read hes hletter hmem with ⟨hkey, -⟩ | ⟨-, report, hparse, rfl⟩
  · cases hkey
  · exact ⟨d, report, hes, hparse, hheard⟩

/-- A refused text may lose its key although it gives it in just one member, as a text. -/
theorem rejection_may_lose_key : ¬ ∀ (k : String) (t : KeyedText k) (es : List ServerEvent) (d : Docket) (l : Letter)
    (key : Option String) (reason : String), (start {} Registry.builtins 4).run? es = some d →
    d.letter? l = some (.request t.bytes) → .rejected key reason ∈ d.heard l → key = some k := by
  intro hclaim
  obtain ⟨d, reason, hes, hletter, hheard⟩ := run_refusedUnread
  have hkey := hclaim "a" mistyped refusedUnread d ⟨0, 0⟩ none reason hes hletter (by
    rw [hheard]
    exact List.mem_singleton.mpr rfl)
  cases hkey

end FrameStream
