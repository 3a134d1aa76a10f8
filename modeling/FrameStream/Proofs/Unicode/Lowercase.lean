import FrameStream.Unicode.Lowercase

/-!
# Lower case of lower case

What `lowercase` leaves consists of characters that it leaves alone wherever they stand (`Settled`). No run moves a
code point to where another run moves it on, and the two rules that look at neighbours apply to a capital sigma only, of
which none is left.
-/

namespace FrameStream.Unicode

/-- A character that is its own lower-case form in every context. -/
def Settled (c : Char) : Prop := lowerChar c = [c] ∧ c ≠ capitalSigma

instance (c : Char) : Decidable (Settled c) := inferInstanceAs (Decidable (_ ∧ _))

/-! ## Runs -/

namespace LowerRun

variable {r r' : LowerRun} {n : Nat}

/-- Whether the run moves `n`. -/
def Moves (r : LowerRun) (n : Nat) : Prop := r.first ≤ n ∧ n ≤ r.last ∧ (n - r.first) % r.step = 0

instance (r : LowerRun) (n : Nat) : Decidable (r.Moves n) := inferInstanceAs (Decidable (_ ∧ _))

/-- Where the run moves `n`. -/
def target (r : LowerRun) (n : Nat) : Nat := ((n : Int) + r.shift).toNat

/-- The code points that the run moves. -/
def points (r : LowerRun) : List Nat :=
  (List.range (r.last + 1 - r.first)).filterMap fun i => if i % r.step = 0 then some (r.first + i) else none

theorem mem_points (h : r.Moves n) : n ∈ r.points := by
  obtain ⟨hfirst, hlast, hstep⟩ := h
  refine List.mem_filterMap.mpr ⟨n - r.first, List.mem_range.mpr (by omega), ?_⟩
  rw [if_pos hstep, Nat.add_sub_cancel' hfirst]

/-- Whether `r'` moves nothing on that `r` has moved; point by point only where the two runs overlap. -/
def clears (r r' : LowerRun) : Bool :=
  Nat.blt (r.target r.last) r'.first || Nat.blt r'.last (r.target r.first) ||
    r.points.all fun n => !decide (r'.Moves (r.target n))

theorem not_moves_target (h : r.clears r' = true) (hn : r.Moves n) : ¬r'.Moves (r.target n) := by
  intro ⟨hlow, hhigh, hstep⟩
  have hfirst : r.target r.first ≤ r.target n := by
    have := hn.1
    unfold target
    omega
  have hlast : r.target n ≤ r.target r.last := by
    have := hn.2.1
    unfold target
    omega
  simp only [clears, Bool.or_eq_true, Nat.blt_eq, List.all_eq_true] at h
  rcases h with (h | h) | h
  · omega
  · omega
  · have hmoves := h n (mem_points hn)
    rw [decide_eq_true ⟨hlow, hhigh, hstep⟩] at hmoves
    cases hmoves

end LowerRun

theorem runs_clear : (lowerRuns.all fun r => lowerRuns.all r.clears) = true := by
  decide +kernel

theorem valid_targets : (lowerRuns.all fun r => r.points.all fun n =>
    decide ((r.target n).isValidChar ∧ r.target n ≠ dottedCapitalI.toNat)) = true := by
  decide +kernel

theorem lowerIn_cases (runs : List LowerRun) (n : Nat) :
    lowerIn runs n = n ∨ ∃ r ∈ runs, r.Moves n ∧ lowerIn runs n = r.target n := by
  induction runs with
  | nil => exact .inl rfl
  | cons r runs ih =>
    rw [lowerIn]
    by_cases hbefore : n < r.first
    · exact .inl (if_pos hbefore)
    · rw [if_neg hbefore]
      by_cases hin : n ≤ r.last ∧ (n - r.first) % r.step = 0
      · rw [if_pos hin]
        exact .inr ⟨r, List.mem_cons_self, ⟨Nat.le_of_not_lt hbefore, hin⟩, rfl⟩
      · rw [if_neg hin]
        exact ih.imp_right fun ⟨r', hmem, hmoves⟩ => ⟨r', List.mem_cons_of_mem r hmem, hmoves⟩

/-! ## Characters -/

variable {c : Char}

theorem lowerIn_ascii : ∀ n < 0x80, lowerIn lowerRuns n = if 0x41 ≤ n ∧ n ≤ 0x5A then n + 32 else n := by
  decide +kernel

/-- The table holds for the first 128 characters too. -/
theorem lowerChar_eq (h : c ≠ dottedCapitalI) : lowerChar c = [Char.ofNat (lowerIn lowerRuns c.toNat)] := by
  rw [lowerChar, if_neg h]
  split
  · rename_i hascii
    rw [lowerIn_ascii c.toNat hascii]
    have hcapital : ('A' ≤ c ∧ c ≤ 'Z') ↔ (0x41 ≤ c.toNat ∧ c.toNat ≤ 0x5A) := Iff.rfl
    by_cases hc : 0x41 ≤ c.toNat ∧ c.toNat ≤ 0x5A
    · rw [if_pos hc, if_pos (hcapital.mpr hc)]
    · rw [if_neg hc, if_neg (mt hcapital.mp hc), Char.ofNat_toNat]
  · rfl

theorem settled_of_not_moves (h : ∀ r ∈ lowerRuns, ¬r.Moves c.toNat) (hdotted : c ≠ dottedCapitalI) : Settled c := by
  refine ⟨?_, fun hsigma => ?_⟩
  · rcases lowerIn_cases lowerRuns c.toNat with hsame | ⟨r, hr, hmoves, -⟩
    · rw [lowerChar_eq hdotted, hsame, Char.ofNat_toNat]
    · exact absurd hmoves (h r hr)
  · subst hsigma
    exact absurd h (by decide +kernel)

theorem settled_lowerChar (h : c ≠ capitalSigma) : ∀ d ∈ lowerChar c, Settled d := by
  by_cases hdotted : c = dottedCapitalI
  · subst hdotted
    have hpair : lowerChar dottedCapitalI = ['i', '\u0307'] := rfl
    rw [hpair]
    exact List.forall_mem_cons.mpr ⟨by decide +kernel, List.forall_mem_singleton.mpr (by decide +kernel)⟩
  have hlower := lowerChar_eq hdotted
  intro d hd
  rw [hlower, List.mem_singleton] at hd
  rcases lowerIn_cases lowerRuns c.toNat with hsame | ⟨r, hr, hmoves, hmoved⟩
  · rw [hsame, Char.ofNat_toNat] at hd hlower
    exact hd ▸ ⟨hlower, h⟩
  · have hvalid := List.all_eq_true.mp (List.all_eq_true.mp valid_targets r hr) _ (LowerRun.mem_points hmoves)
    obtain ⟨hchar, hne⟩ := of_decide_eq_true hvalid
    have hnat : d.toNat = r.target c.toNat := by
      rw [hd, hmoved, Char.ofNat, dif_pos hchar]
      rfl
    refine settled_of_not_moves (fun r' hr' => ?_) fun hd => hne (hnat ▸ congrArg Char.toNat hd)
    rw [hnat]
    exact LowerRun.not_moves_target (List.all_eq_true.mp (List.all_eq_true.mp runs_clear r hr) r' hr') hmoves

theorem settled_lowerSigma (before after : List Char) : Settled (lowerSigma before after) := by
  rw [lowerSigma]
  split <;> decide +kernel

/-! ## Texts -/

theorem settled_lowerAfter (before cs : List Char) : ∀ d ∈ lowerAfter before cs, Settled d := by
  induction cs generalizing before with
  | nil => exact List.forall_mem_nil _
  | cons c cs ih =>
    rw [lowerAfter]
    split
    · exact List.forall_mem_cons.mpr ⟨settled_lowerSigma before cs, ih (c :: before)⟩
    · rename_i hne
      exact List.forall_mem_append.mpr ⟨settled_lowerChar hne, ih (c :: before)⟩

theorem lowerAfter_of_settled {cs : List Char} (h : ∀ c ∈ cs, Settled c) (before : List Char) :
    lowerAfter before cs = cs := by
  induction cs generalizing before with
  | nil => rfl
  | cons c cs ih =>
    obtain ⟨⟨hlower, hne⟩, hrest⟩ := List.forall_mem_cons.mp h
    rw [lowerAfter, if_neg hne, hlower, ih hrest, List.singleton_append]

/-- A text in lower case stays as it is. -/
@[simp] theorem lowercase_lowercase (s : String) : lowercase (lowercase s) = lowercase s := by
  unfold lowercase
  rw [String.toList_ofList, lowerAfter_of_settled (settled_lowerAfter [] s.toList)]

end FrameStream.Unicode
