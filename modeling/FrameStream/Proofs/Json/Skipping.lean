import FrameStream.Proofs.Json.Grammar

/-!
# What nobody wants is run over

A text that is written by the rules can be run over without being read, and the reader then stands right behind it.
This is the looser way through a text: it does not ask what strings spell or how large numbers are, and it knows no
limit on how deep brackets nest. How many steps it takes is bounded by the length of the text.
-/

namespace FrameStream.Json

variable {b : UInt8} {n : Nat} {ds r s t : Bytes}

/-! ## Numerals -/

theorem skipDigits_append (missing : Reader Unit) (hds : Digits ds) (hr : NoDigit r) :
    skipDigits missing (ds ++ r) = .ok ((), r) := by
  obtain ⟨d, t, rfl⟩ := List.exists_cons_of_ne_nil hds.some
  refine (bind_of_ok (x := look) rfl).trans ?_
  simp only [List.cons_append, List.head?_cons, if_pos (hds.all d List.mem_cons_self)]
  exact map_of_ok (g := fun _ => ()) (takeDigits_noDigit hds.all hr)

theorem skipExponent_append (e : Option Exponent) (hr : Ends r) :
    skipExponent (e.elim [] Exponent.bytes ++ r) = .ok ((), r) := by
  cases e with
  | none =>
    refine (bind_of_ok (x := look) rfl).trans ?_
    cases r with
    | nil => rfl
    | cons b r =>
      simp only [Option.elim_none, List.nil_append, List.head?_cons, (hr b rfl).2.2, Bool.false_eq_true, if_false]
      rfl
  | some e =>
    obtain ⟨d, ds, hds⟩ := List.exists_cons_of_ne_nil e.isDigits.some
    have hd : Byte.isDigit d = true := e.isDigits.all d (hds ▸ List.mem_cons_self)
    have hdigits := skipDigits_append (do advance; fault .invalidNumber) e.isDigits hr.noDigit
    refine (bind_of_ok (x := look) rfl).trans ?_
    simp only [Option.elim_some, Exponent.bytes, List.cons_append, List.head?_cons, if_pos e.isLetter]
    refine (bind_of_ok (x := advance) rfl).trans ?_
    refine (bind_of_ok (x := look) rfl).trans ?_
    simp only [List.drop_succ_cons, List.drop_zero]
    cases hsign : e.sign with
    | none =>
      have hunsigned : ¬ (some d = some Byte.minus ∨ some d = some Byte.plus) := by
        rintro (h | h) <;> cases h <;> exact absurd hd (by decide)
      rw [hds] at hdigits
      rw [Option.toList_none, List.nil_append, hds, List.cons_append, List.head?_cons, if_neg hunsigned]
      exact hdigits
    | some c =>
      have hsigned : some c = some Byte.minus ∨ some c = some Byte.plus :=
        (e.isSign c hsign).imp (congrArg some) (congrArg some)
      rw [Option.toList_some, List.singleton_append, List.cons_append, List.head?_cons, if_pos hsigned]
      exact (bind_of_ok (x := advance) (a := ()) rfl).trans hdigits

namespace Numeral

variable (ℓ : Numeral)

theorem skipFraction_tail (hr : Ends r) : skipFraction (ℓ.tail ++ r) = .ok ((), r) := by
  have hexponent := skipExponent_append ℓ.exponent hr
  refine (bind_of_ok (x := look) rfl).trans ?_
  rw [tail, exponentBytes]
  cases hfraction : ℓ.fraction with
  | none =>
    have hpoint := noPoint_exponent ℓ.exponent hr
    rw [Option.elim_none, List.nil_append, if_neg hpoint]
    exact hexponent
  | some f =>
    have hdigits := skipDigits_append (faultAhead .invalidNumber) (ℓ.isFraction f hfraction)
      (noDigit_exponent ℓ.exponent hr)
    rw [Option.elim_some, List.append_assoc, List.cons_append, List.head?_cons, if_pos rfl]
    refine (bind_of_ok (x := advance) (a := ()) rfl).trans ?_
    exact (bind_of_ok hdigits).trans hexponent

theorem skipNumber_unsigned (hr : Ends r) : skipNumber (ℓ.unsigned ++ r) = .ok ((), r) := by
  obtain ⟨d, ds, hds⟩ := List.exists_cons_of_ne_nil ℓ.isWhole.some
  obtain ⟨hd, hdigits⟩ := List.forall_mem_cons.mp (hds ▸ ℓ.isWhole.all)
  have hnone := ℓ.noDigit_tail hr
  have htail := ℓ.skipFraction_tail hr
  rw [unsigned, hds, List.append_assoc, List.cons_append]
  refine (bind_of_ok (x := take) rfl).trans ?_
  simp only [List.head?_cons, List.drop_succ_cons, List.drop_zero]
  by_cases hzero : d = 0x30
  · obtain rfl : ds = [] := ℓ.whole_of_zero (hzero ▸ hds)
    rw [if_pos hzero, List.nil_append]
    refine (bind_of_ok (x := look) rfl).trans ?_
    cases hs : ℓ.tail ++ r with
    | nil =>
      obtain rfl : r = [] := (List.append_eq_nil_iff.mp hs).2
      rfl
    | cons c s =>
      rw [hs] at hnone htail
      simp only [List.head?_cons, hnone c rfl, Bool.false_eq_true, if_false]
      exact htail
  · rw [if_neg hzero, if_pos hd]
    exact (bind_of_ok (takeDigits_noDigit hdigits hnone)).trans htail

end Numeral

/-! ## Values without parts -/

theorem skipScalar_numeral (ℓ : Numeral) (hb : ℓ.bytes = b :: s) (hr : Ends r) :
    skipScalar b (b :: (s ++ r)) = .ok ((), r) := by
  cases hsign : ℓ.negative with
  | true =>
    rw [Numeral.bytes, hsign, if_pos rfl] at hb
    cases hb
    exact (bind_of_ok (x := advance) rfl).trans (ℓ.skipNumber_unsigned hr)
  | false =>
    obtain ⟨d, ds, hds⟩ := List.exists_cons_of_ne_nil ℓ.isWhole.some
    have hdigit : Byte.isDigit d = true := ℓ.isWhole.all d (hds ▸ List.mem_cons_self)
    have hunsigned : ℓ.unsigned = d :: (ds ++ ℓ.tail) := by rw [Numeral.unsigned, hds, List.cons_append]
    rw [Numeral.bytes, hsign, if_neg Bool.false_ne_true, hunsigned] at hb
    obtain ⟨rfl, rfl⟩ := List.cons.inj hb
    have hread := ℓ.skipNumber_unsigned hr
    have hfirst : d = Byte.minus ∨ Byte.isDigit d = true := .inr hdigit
    have hminus : d ≠ Byte.minus := fun heq => absurd (heq ▸ hdigit) (by decide)
    rw [hunsigned] at hread
    rw [skipScalar, if_neg (ne_of_number hfirst (by decide)), if_neg (ne_of_number hfirst (by decide)),
      if_neg (ne_of_number hfirst (by decide)), if_neg (ne_of_number hfirst (by decide)), if_neg hminus, if_pos hdigit]
    exact hread

/-! ## Steps -/

/-- From before a text that stands in front of something, `n` steps lead to behind it. -/
def Skips (n : Nat) (t : Bytes) : Prop :=
  ∀ fuel outer r, Ends r → skipFrom (fuel + n) .before outer (t ++ r) = skipFrom fuel .after outer r

/-- The same for an item of a container, together with its label and the blanks behind it. -/
def SkipsItem (c : Container) (n : Nat) (t : Bytes) : Prop :=
  ∀ fuel outer r, Ends r →
    (skipLabel c >>= fun _ => skipFrom (fuel + 1 + n) .before (c :: outer)) (t ++ r) =
      skipFrom (fuel + 1) .after (c :: outer) r

theorem blind_before (fuel : Nat) (outer : List Container) : Blind (skipFrom (fuel + 1) .before outer) :=
  blind_token.bind _

theorem blind_after (fuel : Nat) (c : Container) (outer : List Container) :
    Blind (skipFrom (fuel + 1) .after (c :: outer)) := blind_token.bind _

theorem blind_item (fuel : Nat) (c : Container) (outer : List Container) :
    Blind (skipLabel c >>= fun _ => skipFrom (fuel + 1) .before (c :: outer)) := by
  cases c with
  | list => exact blind_before fuel _
  | object => exact Blind.bind (blind_token.bind _) _

theorem skips_scalar (hspace : Byte.isSpace b = false) (hlist : b ≠ Byte.openList)
    (hobject : b ≠ Byte.openObject) (h : ∀ r, Ends r → skipScalar b (b :: (t ++ r)) = .ok ((), r)) :
    Skips 1 (b :: t) := by
  intro fuel outer r hr
  refine (bind_of_ok (token_cons hspace)).trans ?_
  simp only [if_neg hlist, if_neg hobject]
  exact bind_of_ok (h r hr)

theorem isSpace_closing (c : Container) : Byte.isSpace c.closing = false := by
  cases c <;> rfl

theorem closing_ne_comma (c : Container) : c.closing ≠ Byte.comma := by
  cases c <;> decide

theorem ends_closing (c : Container) (r : Bytes) : Ends (c.closing :: r) := by
  cases c <;> exact ends_cons (by decide)

/-! ## Containers -/

theorem skipFrom_close (c : Container) (gap : Blanks) (fuel : Nat) (outer : List Container) (r : Bytes) :
    skipFrom (fuel + 1) .after (c :: outer) (gap.bytes ++ c.closing :: r) = skipFrom fuel .after outer r := by
  refine (bind_of_ok (token_blanks gap (isSpace_closing c) r)).trans ?_
  simp only [if_neg (closing_ne_comma c), if_true]
  exact bind_of_ok (x := advance) rfl

/-- Items behind their commas are run over one by one, and the closing byte is taken. -/
theorem skips_following {c : Container} {ts : List Bytes} (gap : Blanks)
    (h : ∀ t ∈ ts, ∃ n, n + 1 < 2 * t.length ∧ SkipsItem c (n + 1) t) :
    ∃ n, n ≤ 2 * (inside false ts).length ∧ ∀ fuel outer r,
      skipFrom (fuel + 1 + n) .after (c :: outer) (inside false ts ++ (gap.bytes ++ c.closing :: r)) =
        skipFrom fuel .after outer r := by
  induction ts with
  | nil => exact ⟨0, Nat.le_refl 0, fun fuel outer r => skipFrom_close c gap fuel outer r⟩
  | cons t ts ih =>
    obtain ⟨m, hm, hitem⟩ := h t List.mem_cons_self
    obtain ⟨k, hk, hrest⟩ := ih fun u hu => h u (List.mem_cons_of_mem _ hu)
    refine ⟨k + (m + 1) + 1, ?_, fun fuel outer r => ?_⟩
    · rw [inside, List.length_cons, List.length_append]
      omega
    · have hends : Ends (inside false ts ++ (gap.bytes ++ c.closing :: r)) :=
        ends_inside (ends_blanks gap (ends_closing c r)) ts
      have hfuel : fuel + 1 + (k + (m + 1) + 1) = fuel + k + 1 + (m + 1) + 1 := by omega
      have hfirst := hitem (fuel + k) outer _ hends
      rw [Nat.add_right_comm fuel k 1, hrest fuel outer r] at hfirst
      rw [inside, List.cons_append, List.append_assoc, hfuel]
      refine (bind_of_ok (token_cons (by decide))).trans ?_
      simp only [if_true]
      rw [Nat.add_right_comm fuel k 1]
      exact (bind_of_ok (x := advance) (a := ()) rfl).trans hfirst

/-- The inside of a container is run over, up to and with its closing byte. -/
theorem skips_inside {c : Container} {ts : List Bytes} (gap : Blanks)
    (hled : ∀ t ∈ ts, Led t) (h : ∀ t ∈ ts, ∃ n, n + 1 < 2 * t.length ∧ SkipsItem c (n + 1) t) :
    ∃ n, n ≤ 2 * (inside true ts).length + 2 ∧ ∀ fuel outer r,
      skipFrom (fuel + n) .opened (c :: outer) (inside true ts ++ (gap.bytes ++ c.closing :: r)) =
        skipFrom fuel .after outer r := by
  cases ts with
  | nil =>
    refine ⟨1, by omega, fun fuel outer r => ?_⟩
    rw [inside_nil, List.nil_append]
    refine (bind_of_ok (token_blanks gap (isSpace_closing c) r)).trans ?_
    simp only [if_true]
    exact bind_of_ok (x := advance) rfl
  | cons t ts =>
    obtain ⟨w, b, s, ht, hspace, hlist, hobject⟩ := hled t List.mem_cons_self
    have hclose : b ≠ c.closing := by cases c <;> assumption
    obtain ⟨m, hm, hitem⟩ := h t List.mem_cons_self
    obtain ⟨k, hk, hrest⟩ := skips_following gap fun u hu => h u (List.mem_cons_of_mem _ hu)
    refine ⟨k + 1 + (m + 1) + 1, ?_, fun fuel outer r => ?_⟩
    · rw [inside, List.length_append]
      omega
    · have hends : Ends (inside false ts ++ (gap.bytes ++ c.closing :: r)) :=
        ends_inside (ends_blanks gap (ends_closing c r)) ts
      have hfirst := hitem (fuel + k) outer _ hends
      rw [Nat.add_right_comm fuel k 1, hrest fuel outer r, ht, List.append_assoc, ← Nat.add_assoc,
        (blind_item (fuel + 1 + k + m) c outer).blanks w] at hfirst
      rw [inside, ht, List.append_assoc, List.append_assoc, ← hfirst]
      have hfuel : fuel + (k + 1 + (m + 1) + 1) = fuel + 1 + k + m + 1 + 1 := by omega
      rw [hfuel]
      refine (bind_of_ok (token_blanks w hspace _)).trans ?_
      simp only [if_neg hclose]
      rfl

def Container.opening : Container → UInt8
  | .list => Byte.openList
  | .object => Byte.openObject

/-- A container is run over in less than twice as many steps as it has bytes, if its items are. -/
theorem skips_container {c : Container} {ts : List Bytes} (gap : Blanks)
    (hled : ∀ t ∈ ts, Led t) (h : ∀ t ∈ ts, ∃ n, n + 1 < 2 * t.length ∧ SkipsItem c (n + 1) t) :
    ∃ n, n + 1 < 2 * (c.opening :: (inside true ts ++ (gap.bytes ++ [c.closing]))).length ∧
      Skips (n + 1) (c.opening :: (inside true ts ++ (gap.bytes ++ [c.closing]))) := by
  obtain ⟨n, hn, hinside⟩ := skips_inside gap hled h
  refine ⟨n, ?_, fun fuel outer r _ => ?_⟩
  · rw [List.length_cons, List.length_append, List.length_append, List.length_singleton]
    omega
  · have hstep : ∀ s, skipFrom (fuel + n + 1) .before outer (c.opening :: s) =
        skipFrom (fuel + n) .opened (c :: outer) s := by
      intro s
      cases c <;> exact (bind_of_ok (token_cons (by decide))).trans (bind_of_ok (x := advance) (a := ()) rfl)
    rw [List.cons_append, List.append_assoc, List.append_assoc, List.singleton_append, ← Nat.add_assoc, hstep]
    exact hinside fuel outer r

/-! ## Values -/

theorem skipsItem_list (i : Item) (h : Skips n i.value) : SkipsItem .list n i.bytes := by
  intro fuel outer r hr
  rw [Item.bytes, List.append_assoc]
  refine (bind_of_ok (x := skipLabel .list) rfl).trans ?_
  rw [h (fuel + 1) (.list :: outer) _ (ends_blanks i.after hr), (blind_after fuel .list outer).blanks]

theorem skipsItem_entry (e : Entry) (h : Skips n e.value) : SkipsItem .object n e.bytes := by
  intro fuel outer r hr
  have hlabel : skipName (e.bytes ++ r) = .ok ((), e.value ++ (e.after.bytes ++ r)) := by
    simp only [Entry.bytes, List.append_assoc, List.cons_append]
    refine (bind_of_ok (token_blanks e.before (by decide) _)).trans ?_
    simp only [if_true]
    refine (bind_of_ok (x := advance) (a := ()) rfl).trans ?_
    exact (bind_of_ok (skipString_enclosed e.name _)).trans (colon_blanks e.mid _)
  refine (bind_of_ok hlabel).trans ?_
  rw [h (fuel + 1) (.object :: outer) _ (ends_blanks e.after hr), (blind_after fuel .object outer).blanks]

/-- The text of a value is run over in less than twice as many steps as it has bytes. -/
theorem Written.skips (h : Written t) : ∃ n, n + 1 < 2 * t.length ∧ Skips (n + 1) t := by
  induction h with
  | @blank b t hb _ ih =>
    obtain ⟨n, hn, hskips⟩ := ih
    refine ⟨n, ?_, fun fuel outer r hr => ?_⟩
    · rw [List.length_cons]
      omega
    · exact (blind_before (fuel + n) outer b _ hb).trans (hskips fuel outer r hr)
  | null => exact ⟨0, by decide, skips_scalar (by decide) (by decide) (by decide) fun r _ => word_append restOfNull r⟩
  | wordTrue =>
    exact ⟨0, by decide, skips_scalar (by decide) (by decide) (by decide) fun r _ => word_append restOfTrue r⟩
  | wordFalse =>
    exact ⟨0, by decide, skips_scalar (by decide) (by decide) (by decide) fun r _ => word_append restOfFalse r⟩
  | numeral ℓ =>
    obtain ⟨b, s, hb, hfirst⟩ := ℓ.bytes_eq_cons
    refine ⟨0, ?_, ?_⟩
    · rw [hb, List.length_cons]
      omega
    · rw [hb]
      exact skips_scalar (isSpace_of_number hfirst) (ne_of_number hfirst (by decide)) (ne_of_number hfirst (by decide))
        fun r hr => skipScalar_numeral ℓ hb hr
  | string ps =>
    refine ⟨0, ?_, skips_scalar (by decide) (by decide) (by decide) fun r _ => skipString_enclosed ps r⟩
    rw [List.length_cons]
    omega
  | @list is gap h ih =>
    refine skips_container (c := .list) gap (List.forall_mem_map.mpr fun i hi => (h i hi).led.append _)
      (List.forall_mem_map.mpr fun i hi => ?_)
    obtain ⟨n, hn, hskips⟩ := ih i hi
    refine ⟨n, ?_, skipsItem_list i hskips⟩
    rw [Item.bytes, List.length_append]
    omega
  | @object es gap h ih =>
    refine skips_container (c := .object) gap (List.forall_mem_map.mpr fun e _ => ?_)
      (List.forall_mem_map.mpr fun e he => ?_)
    · exact ⟨e.before, _, _, rfl, by decide, by decide, by decide⟩
    · obtain ⟨n, hn, hskips⟩ := ih e he
      refine ⟨n, ?_, skipsItem_entry e hskips⟩
      simp only [Entry.bytes, List.length_append, List.length_cons]
      omega

/-- The text of a value is run over, and nothing more than the text. -/
theorem Written.takes_skipValue (h : Written t) : Takes skipValue t (some ()) := by
  intro r hr
  obtain ⟨n, hn, hskips⟩ := h.skips
  have hfuel : 2 * (t ++ r).length + 2 = 2 * (t ++ r).length - n + 1 + (n + 1) := by
    rw [List.length_append]
    omega
  have hrun : skipValue (t ++ r) = skipFrom (2 * (t ++ r).length - n + 1) .after [] r := by
    show skipFrom (2 * (t ++ r).length + 2) .before [] (t ++ r) = _
    rw [hfuel, hskips _ _ r hr]
  exact .reads hrun

end FrameStream.Json
