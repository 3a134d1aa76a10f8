import FrameStream.Proofs.Channel.Replies
import FrameStream.Proofs.Request.Accept

/-!
# One answer to every request

A request is accepted or rejected once, whatever else goes on, and on a channel that stays open it is. The answer is
the first that is said about it; after a rejection nothing more is said.
-/

namespace FrameStream

/-- What the client may have heard about the bytes of a request. -/
structure Docket.Heard (d : Docket) (config : ServiceConfig) (registry : Registry) (l : Letter) (text : Bytes) :
    Prop where
  /-- The first message accepts or rejects the request; no other does. -/
  once : ∀ first rest, d.heard l = first :: rest → first.isAdmission = true ∧ ∀ m ∈ rest, m.isAdmission = false
  accepted : ∀ key, .accepted key ∈ d.heard l → l ∈ d.unhindered ∧ ∃ r job processor,
    Request.parse text = .ok r ∧ r.validate config.defaultModel = .ok job ∧
      registry.resolve job.model = .ok processor ∧ key = job.key
  /-- A rejection is the last that is heard, and has the key of its own request. -/
  rejected : ∀ key reason, .rejected key reason ∈ d.heard l → d.heard l = [.rejected key reason] ∧
    (∀ r, Request.parse text = .ok r → key = r.key) ∧ (∀ x, Request.parse text = .error x → key = none)

namespace Docket

variable {d : Docket} {config : ServiceConfig} {registry : Registry} {l : Letter} {text : Bytes} {r : Request}
  {closed : Bool} {p : Phase} {m : Message}

theorem Heard.of_silent (h : d.heard l = []) : d.Heard config registry l text where
  once _ _ hfirst := by
    rw [h] at hfirst
    cases hfirst
  accepted _ hkey := by
    rw [h] at hkey
    cases hkey
  rejected _ _ hkey := by
    rw [h] at hkey
    cases hkey

theorem Heard.of_rejected {key : Option String} {reason : String} (h : d.heard l = [.rejected key reason])
    (hok : ∀ r, Request.parse text = .ok r → key = r.key) (herror : ∀ x, Request.parse text = .error x → key = none) :
    d.Heard config registry l text where
  once first rest hfirst := by
    rw [h] at hfirst
    cases hfirst
    exact ⟨rfl, nofun⟩
  accepted key' hkey := by
    rw [h] at hkey
    cases List.mem_singleton.mp hkey
  rejected key' reason' hkey := by
    rw [h] at hkey
    cases List.mem_singleton.mp hkey
    exact ⟨h, hok, herror⟩

/-- A letter that its job answers. -/
theorem Heard.of_speech (hunhindered : l ∈ d.unhindered) (hparse : Request.parse text = .ok r)
    (hspeech : Speech r config registry closed p (d.heard l)) : d.Heard config registry l text := by
  generalize hheard : d.heard l = heard at hspeech
  cases hspeech with
  | rejecting x refused => exact .of_silent hheard
  | acknowledging job processor accepted => exact .of_silent hheard
  | unheard o gone => exact .of_silent hheard
  | rejected x refused o =>
    refine .of_rejected hheard (fun r' hr' => ?_) fun x hx => ?_
    · rw [hparse] at hr'
      cases hr'
      rfl
    · rw [hparse] at hx
      cases hx
  | accepted job processor accepted p working rest later =>
    refine ⟨fun first rest' hfirst => ?_, fun key hkey => ⟨hunhindered, ?_⟩, fun key reason hkey => ?_⟩
    · rw [hheard] at hfirst
      cases hfirst
      exact ⟨rfl, later⟩
    · rw [hheard] at hkey
      rcases List.mem_cons.mp hkey with heq | hlater
      · cases heq
        obtain ⟨hvalid, hmodel⟩ := Request.validate_of_accept accepted
        exact ⟨r, job, processor, hparse, hvalid, hmodel, rfl⟩
      · cases later _ hlater
    · rw [hheard] at hkey
      rcases List.mem_cons.mp hkey with heq | hlater
      · cases heq
      · cases later _ hlater

/-- A letter that the receive loop answers. -/
theorem Heard.of_declines (hheard : d.heard l = [m]) (hdeclines : Declines text m) :
    d.Heard config registry l text := by
  cases hdeclines with
  | malformed e parsed =>
    refine .of_rejected hheard (fun r hr => ?_) fun _ _ => rfl
    rw [parsed] at hr
    cases hr
  | unstartable r e parsed =>
    refine .of_rejected hheard (fun r' hr' => ?_) fun x hx => ?_
    · rw [parsed] at hr'
      cases hr'
      rfl
    · rw [parsed] at hx
      cases hx

/-- The receive loop has said nothing about a letter that it is about to decline. -/
theorem Sound.silent_of_busy (h : d.Sound config registry) (hlast : l.place + 1 = d.taken l.connection)
    (hbusy : d.Busy l.connection) : d.heard l = [] := by
  obtain ⟨c, hc, hlistens, hleft⟩ := hbusy
  have hl : d.last l.connection = l := by rw [last, ← hlast]; rfl
  have hloop := h.answered.loop _ c hc
  cases hr : c.receiving with
  | listening => exact absurd hr hlistens
  | refusing m =>
    rw [hr] at hloop
    have hd : d.Declining (d.last l.connection) m := hloop
    exact hl ▸ hd.silent
  | waiting ticket =>
    rw [hr] at hloop
    obtain ⟨m, hd, -⟩ := hloop
    exact hl ▸ hd.silent
  | left => exact absurd hr hleft

theorem Sound.heard (h : d.Sound config registry) (hl : d.letter? l = some (.request text)) :
    d.Heard config registry l text := by
  by_cases hjob : l ∈ d.origins
  · obtain ⟨k, hk⟩ := List.mem_iff_getElem?.mp hjob
    obtain ⟨j, -, hstands⟩ := h.answered.exists_job h.wired hk
    obtain ⟨text', r, hletter, hparse, hspeech⟩ := hstands.speech
    rw [hl] at hletter
    cases hletter
    exact .of_speech hstands.unhindered hparse hspeech
  · cases h.answered.rest l hjob with
    | coming later silent => exact .of_silent silent
    | declining last busy => exact .of_silent (h.silent_of_busy last busy)
    | skipped taken silent other => exact .of_silent silent
    | declined taken text' m request declines said =>
      rw [hl] at request
      cases request
      exact .of_declines said declines
    | unheard taken silent gone => exact .of_silent silent

/-- Nothing is said about what is not a request. -/
theorem Sound.silent_of_other (h : d.Sound config registry) (hl : ∀ text, d.letter? l ≠ some (.request text)) :
    d.heard l = [] := by
  by_cases hjob : l ∈ d.origins
  · obtain ⟨k, hk⟩ := List.mem_iff_getElem?.mp hjob
    obtain ⟨j, -, hstands⟩ := h.answered.exists_job h.wired hk
    obtain ⟨text, r, hletter, -, -⟩ := hstands.speech
    exact absurd hletter (hl text)
  · cases h.answered.rest l hjob with
    | coming later silent => exact silent
    | declining last busy => exact h.silent_of_busy last busy
    | skipped taken silent other => exact silent
    | declined taken text m request declines said => exact absurd request (hl text)
    | unheard taken silent gone => exact silent

/-- What is heard about a letter is said on its channel. -/
theorem mem_saidOn (h : m ∈ d.heard l) : m ∈ d.saidOn l.connection := by
  obtain ⟨said, hsaid, rfl⟩ := List.mem_map.mp h
  obtain ⟨hsaid, hl⟩ := List.mem_filter.mp hsaid
  have hl : said.1 = l := by simpa using hl
  exact List.mem_map.mpr ⟨said, List.mem_filter.mpr ⟨hsaid, by simp [hl]⟩, rfl⟩

/-- The one answer that is heard. -/
theorem Heard.filter_admission (h : d.Heard config registry l text) {rest : List Message}
    (hheard : d.heard l = m :: rest) : (d.heard l).filter Message.isAdmission = [m] := by
  obtain ⟨hfirst, hrest⟩ := h.once m rest hheard
  rw [hheard, List.filter_cons_of_pos hfirst, List.filter_eq_nil_iff.mpr fun m' hm' => by simp [hrest m' hm']]

end Docket

namespace Timeline

variable {σ : Timeline} {config : ServiceConfig} {registry : Registry} {depth n t : Nat} {l : Letter} {text : Bytes}

theorem Runs.answered_for_ever (h : σ.Runs config registry depth) (hserves : σ.Serves l.connection)
    (hopen : σ.StaysOpen l.connection t) (hl : (σ.docket t).letter? l = some (.request text)) :
    ∃ answer T, t ≤ T ∧ ∀ u, T ≤ u → ((σ.docket u).heard l).filter Message.isAdmission = [answer] ∧
      answer.text ∈ ((σ.docket u).forwarded l.connection).filterMap OutFrame.text? := by
  obtain ⟨t₁, ht₁, hheard⟩ := h.answers hserves hopen hl
  obtain ⟨answer, rest, hanswer⟩ := List.exists_cons_of_ne_nil hheard
  obtain ⟨t₂, ht₂, hforwarded⟩ := h.forwards hserves (hopen.mono ht₁)
  refine ⟨answer, t₂, Nat.le_trans ht₁ ht₂, fun u hu => ⟨?_, ?_⟩⟩
  · obtain ⟨more, hmore⟩ := (h.extends (Nat.le_trans ht₂ hu)).heard l
    rw [hanswer] at hmore
    have hletter := (h.extends (Nat.le_trans (Nat.le_trans ht₁ ht₂) hu)).letter hl
    exact ((h.sound u).heard hletter).filter_admission hmore.symm
  · -- What was said when the answer was given is out of the queue.
    have hsaid := ((h.extends (Nat.le_trans ht₂ hu)).saidOn l.connection).map Message.text
    rw [← h.said_on hopen (Nat.le_trans (Nat.le_trans ht₁ ht₂) hu)] at hsaid
    have hgrown := (((h.extends hu).forwarded l.connection).filterMap OutFrame.text?).length_le
    have hout := List.prefix_of_prefix_length_le hsaid (List.prefix_append _ _)
      (by rw [List.length_map]; exact Nat.le_trans hforwarded hgrown)
    refine hout.subset (List.mem_map_of_mem (Docket.mem_saidOn ?_))
    rw [hanswer]
    exact List.mem_cons_self

end Timeline

/-- Every request gets exactly one answer. Whatever happens on any connections, the client hears at most one admission
for the bytes of a request, and all it hears is what went through the queue of its channel. If the channel stays open,
nobody who serves it is held up for ever and the queue is drained, then there is one answer at last, and it is out of
the queue. -/
theorem requests_answered_once (config : ServiceConfig) (registry : Registry) (depth : Nat) :
    (∀ es d, (Docket.start config registry depth).run? es = some d →
      (∀ l text, d.letter? l = some (.request text) → d.Heard config registry l text) ∧
      (∀ l, (∀ text, d.letter? l ≠ some (.request text)) → d.heard l = []) ∧
      (∀ n, d.server.book.closed n = false →
        (d.forwarded n).filterMap OutFrame.text? ++ (d.outbound n).texts = (d.saidOn n).map Message.text)) ∧
    (∀ (σ : Timeline) (l : Letter) (text : Bytes) (t : Nat), σ.Runs config registry depth → σ.Serves l.connection →
      σ.StaysOpen l.connection t → (σ.docket t).letter? l = some (.request text) →
      ∃ answer T, t ≤ T ∧ ∀ u, T ≤ u → ((σ.docket u).heard l).filter Message.isAdmission = [answer] ∧
        answer.text ∈ ((σ.docket u).forwarded l.connection).filterMap OutFrame.text?) := by
  refine ⟨fun es d hes => ?_, fun σ l text t hruns hserves hopen hl => hruns.answered_for_ever hserves hopen hl⟩
  have hsound := Docket.sound_run (Docket.sound_start config registry depth) hes
  refine ⟨fun l text hl => hsound.heard hl, fun l hl => hsound.silent_of_other hl, fun n hopen => ?_⟩
  obtain ⟨ho, hclosed⟩ := Timeline.outbound_eq_some hopen
  exact hsound.mirrored.said n _ ho (Timeline.receiving_of_open hclosed)

/-- Two requests on one channel; the second finds the slot taken, and its answer goes first. -/
def inTurn : List ServerEvent := [
  .accepted "a",
  .arrived 0 (.request (Bytes.ofText "\x7b\"key\":\"k\",\"resource\":\"r\"\x7d")),
  .arrived 0 (.request (Bytes.ofText "\x7b\"key\":\"m\"\x7d")),
  .taken 0, .taken 0, .refused 0, .sent 0, .forwarded 0, .written 0, .resumed 0, .forwarded 0, .written 0]

/-- The two requests and their answers, after which nothing happens. -/
def takingTurns : Timeline := .stopping (Docket.start {} Registry.builtins 1) inTurn

theorem requests_answered_once_in_turn :
    ∃ d, (Docket.start {} Registry.builtins 1).run? inTurn = some d ∧
      d.heard ⟨0, 0⟩ = [.accepted "k"] ∧ ⟨0, 0⟩ ∈ d.unhindered ∧
      (∃ reason, d.heard ⟨0, 1⟩ = [.rejected (some "m") reason]) ∧
      ∃ answer T, 3 ≤ T ∧ ∀ u, T ≤ u →
        ((takingTurns.docket u).heard ⟨0, 1⟩).filter Message.isAdmission = [answer] ∧
          answer.text ∈ ((takingTurns.docket u).forwarded 0).filterMap OutFrame.text? := by
  obtain ⟨d, hrun, hfirst, hsecond, ⟨text, htext⟩, hrest, hopen⟩ :
      ∃ d, (Docket.start {} Registry.builtins 1).run? inTurn = some d ∧ d.heard ⟨0, 0⟩ = [.accepted "k"] ∧
        (∃ reason, d.heard ⟨0, 1⟩ = [.rejected (some "m") reason]) ∧
        (∃ text, d.letter? ⟨0, 0⟩ = some (.request text)) ∧ d.atRest 0 = true ∧
        d.server.book.closed 0 = false :=
    ⟨_, rfl, rfl, ⟨_, rfl⟩, ⟨_, rfl⟩, rfl, rfl⟩
  obtain ⟨hsafe, hlive⟩ := requests_answered_once {} Registry.builtins 1
  have hheard := (hsafe inTurn d hrun).1 ⟨0, 0⟩ text htext
  have hunhindered := (hheard.accepted "k" (by rw [hfirst]; exact List.mem_singleton.mpr rfl)).1
  have hstays : takingTurns.StaysOpen 0 3 := by
    intro u hu
    rcases Nat.lt_or_ge u inTurn.length with hlt | hge
    · have hbefore : ∀ u, u < inTurn.length → 3 ≤ u → (takingTurns.docket u).server.book.closed 0 = false := by
        decide
      exact hbefore u hlt hu
    · rw [takingTurns, Timeline.docket_stopping hrun hge]
      exact hopen
  have hanswer := hlive takingTurns ⟨0, 1⟩ _ 3 (Timeline.runs_stopping hrun) (Timeline.serves_stopping hrun hrest)
    hstays rfl
  exact ⟨d, hrun, hfirst, hunhindered, hsecond, hanswer⟩

end FrameStream
