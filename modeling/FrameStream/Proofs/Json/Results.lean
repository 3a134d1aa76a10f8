import FrameStream.Proofs.Json.Numerals

/-!
# What reading can give

A reader that gives nothing but what has some property stays so whatever comes before it, and hands the property on to
what comes after (`Gives.bind`). So a whole number that was read has at most 64 bits, and a record has every property
that it starts with and that its fields keep.
-/

namespace FrameStream.Json

/-- Whatever the reader makes of a text, it has the property `P`. -/
def Gives {α : Type} (x : Reader α) (P : α → Prop) : Prop := ∀ s a r, x s = .ok (a, r) → P a

section
variable {α β : Type} {x : Reader α} {f : α → Reader β} {g : α → β} {P : α → Prop} {Q : β → Prop}

theorem Gives.bind (hx : Gives x P) (hf : ∀ a, P a → Gives (f a) Q) : Gives (x >>= f) Q := by
  intro s b r h
  cases hs : x s with
  | error e =>
    rw [bind_of_error hs] at h
    cases h
  | ok p =>
    rw [bind_of_ok hs] at h
    exact hf p.1 (hx s p.1 p.2 hs) p.2 b r h

/-- What is read first may be anything. -/
theorem gives_bind (hf : ∀ a, Gives (f a) Q) : Gives (x >>= f) Q :=
  Gives.bind (P := fun _ => True) (fun _ _ _ _ => trivial) fun a _ => hf a

theorem Gives.map (hx : Gives x fun a => Q (g a)) : Gives (g <$> x) Q := by
  intro s b r h
  cases hs : x s with
  | error e =>
    change (x s >>= fun p => pure (g p.1, p.2)) = .ok (b, r) at h
    rw [hs] at h
    cases h
  | ok p =>
    rw [map_of_ok hs] at h
    cases h
    exact hx s p.1 p.2 hs

theorem gives_pure {a : α} (h : P a) : Gives (pure a) P := by
  rintro s _ r ⟨⟩
  exact h

theorem gives_fault (p : Problem) : Gives (fault p) P := fun _ _ _ h => nomatch h

theorem gives_faultAhead (p : Problem) : Gives (faultAhead p) P := fun _ _ _ h => nomatch h

theorem Gives.of_readAll {a : α} {source : Bytes} (hx : Gives x P) (h : readAll x source = .ok a) : P a := by
  unfold readAll at h
  cases hs : (x <* endOfText) source with
  | error e =>
    rw [hs] at h
    cases h
  | ok p =>
    rw [hs] at h
    cases h
    have hall : Gives (x <* endOfText) P := hx.bind fun a ha => gives_bind fun _ => gives_pure ha
    exact hall source p.1 p.2 hs

end

/-! ## Numbers -/

/-- A whole number has no more than 64 bits. -/
def Number.Held (x : Number) : Prop := ∀ i, x = .whole i → i ≤ maxWhole

section
variable {negative : Bool} {n : Nat} {exponent : Int}

theorem held_real (x : Binary64) : (Number.real x).Held := fun _ h => nomatch h

theorem held_wholeNumber (negative : Bool) (h : n ≤ maxWhole) : (wholeNumber negative n).Held := by
  intro i hi
  unfold wholeNumber at hi
  split at hi
  · split at hi
    · cases hi
    · cases hi
      omega
  · cases hi
    exact Int.ofNat_le.mpr h

theorem absorb_le (h : n ≤ maxWhole) (s : Bytes) : (absorb n s).1 ≤ maxWhole := by
  induction s generalizing n with
  | nil => exact h
  | cons b s ih =>
    rw [absorb]
    split
    · rename_i fits
      exact ih fits.2
    · exact h

theorem gives_scaledNumber (negative : Bool) (n : Nat) (exponent : Int) :
    Gives (scaledNumber negative n exponent) Number.Held := by
  unfold scaledNumber
  split
  · exact gives_pure (held_real _)
  · exact gives_fault _

theorem gives_exponentDigits (negative : Bool) (n : Nat) (exponent : Int) (sign : Option UInt8) :
    Gives (exponentDigits negative n exponent sign) Number.Held := by
  refine gives_bind fun next => ?_
  cases next with
  | none => exact gives_fault _
  | some b =>
    dsimp only
    split
    · refine gives_bind fun absorbed => ?_
      cases absorbed with
      | some e => exact gives_scaledNumber _ _ _
      | none =>
        dsimp only
        split
        · exact gives_fault _
        · exact gives_bind fun _ => gives_pure (held_real _)
    · exact gives_fault _

theorem gives_exponentPart (negative : Bool) (n : Nat) (exponent : Int) :
    Gives (exponentPart negative n exponent) Number.Held := by
  refine gives_bind fun _ => gives_bind fun sign => ?_
  have hdigits := gives_exponentDigits negative n exponent sign
  dsimp only
  split
  · exact gives_bind fun _ => hdigits
  · exact hdigits

theorem gives_exponentOrEnd (negative : Bool) (n : Nat) (exponent : Int) :
    Gives (exponentOrEnd negative n exponent) Number.Held := by
  refine gives_bind fun next => ?_
  cases next with
  | none => exact gives_scaledNumber _ _ _
  | some b =>
    dsimp only
    split
    · exact gives_exponentPart _ _ _
    · exact gives_scaledNumber _ _ _

theorem gives_fractionPart (negative : Bool) (n : Nat) (exponent : Int) :
    Gives (fractionPart negative n exponent) Number.Held := by
  refine gives_bind fun _ => gives_bind fun before => gives_bind fun significand => gives_bind fun after =>
    gives_bind fun ignored => ?_
  dsimp only
  split
  · refine gives_bind fun next => ?_
    cases next with
    | none => exact gives_faultAhead _
    | some b => exact gives_faultAhead _
  · exact gives_exponentOrEnd _ _ _

theorem gives_afterWhole (negative : Bool) (h : n ≤ maxWhole) : Gives (afterWhole negative n) Number.Held := by
  refine gives_bind fun next => ?_
  cases next with
  | none => exact gives_pure (held_wholeNumber negative h)
  | some b =>
    dsimp only
    split
    · exact gives_fractionPart _ _ _
    split
    · exact gives_exponentPart _ _ _
    · exact gives_pure (held_wholeNumber negative h)

theorem gives_afterLong (negative : Bool) (n more : Nat) : Gives (afterLong negative n more) Number.Held := by
  refine gives_bind fun next => ?_
  cases next with
  | none => exact gives_scaledNumber _ _ _
  | some b =>
    dsimp only
    split
    · exact gives_fractionPart _ _ _
    · exact gives_exponentOrEnd _ _ _

theorem gives_absorb (b : UInt8) :
    Gives (fun s => .ok (absorb (Byte.digit b) s) : Reader Nat) (· ≤ maxWhole) := by
  rintro s n r h
  have habsorb := absorb_le (digit_le b) s
  rw [Except.ok.inj h] at habsorb
  exact habsorb

theorem gives_unsignedNumber (negative : Bool) : Gives (unsignedNumber negative) Number.Held := by
  refine gives_bind fun next => ?_
  cases next with
  | none => exact gives_fault _
  | some b =>
    dsimp only
    split
    · refine gives_bind fun next => ?_
      cases next with
      | none => exact gives_afterWhole negative (Nat.zero_le _)
      | some c =>
        dsimp only
        split
        · exact gives_faultAhead _
        · exact gives_afterWhole negative (Nat.zero_le _)
    split
    · refine (gives_absorb b).bind fun n hn => gives_bind fun more => ?_
      split
      · exact gives_afterWhole negative hn
      · exact gives_afterLong _ _ _
    · exact gives_fault _

theorem gives_numeral : Gives numeral Number.Held := by
  refine gives_bind fun next => ?_
  split
  · exact gives_bind fun _ => gives_unsignedNumber true
  · exact gives_unsignedNumber false

end

/-! ## Values -/

/-- A value that is a whole number has no more than 64 bits. -/
def Held (v : Json) : Prop := ∀ x, v = .number x → x.Held

theorem gives_scalar (b : UInt8) : Gives (scalar b) Held := by
  unfold scalar
  split
  · exact gives_bind fun _ => gives_bind fun _ => gives_pure fun _ h => nomatch h
  split
  · exact gives_bind fun _ => gives_bind fun _ => gives_pure fun _ h => nomatch h
  split
  · exact gives_bind fun _ => gives_bind fun _ => gives_pure fun _ h => nomatch h
  split
  · exact gives_bind fun _ => Gives.map fun _ _ _ _ _ h => nomatch h
  split
  · refine Gives.map fun s n r h x hx => ?_
    cases hx
    exact gives_numeral s n r h
  · exact gives_faultAhead _

theorem gives_value (levels : Nat) : Gives (value levels) Held := by
  cases levels with
  | zero =>
    refine gives_bind fun next => ?_
    cases next with
    | none => exact gives_faultAhead _
    | some b =>
      dsimp only
      split
      · exact gives_faultAhead _
      · exact gives_scalar b
  | succ levels =>
    refine gives_bind fun next => ?_
    cases next with
    | none => exact gives_faultAhead _
    | some b =>
      dsimp only
      split
      · exact gives_bind fun _ => gives_bind fun _ => Gives.map fun _ _ _ _ _ h => nomatch h
      split
      · exact gives_bind fun _ => gives_bind fun _ => Gives.map fun _ _ _ _ _ h => nomatch h
      · exact gives_scalar b

/-! ## Records -/

section
variable {α σ : Type} {P : α → Prop} {Q : σ → Prop}

theorem gives_optional {x : Reader α} (hx : Gives x P) : Gives (optional x) fun o => ∀ a ∈ o, P a := by
  refine gives_bind fun next => ?_
  split
  · exact gives_bind fun _ => gives_bind fun _ => gives_pure fun _ h => nomatch h
  · refine Gives.map fun s a r h b hb => ?_
    cases hb
    exact hx s a r h

theorem gives_unwanted (wanted : Wanted) (b : UInt8) : Gives (unwanted wanted b : Reader α) P := by
  unfold unwanted
  split
  · exact gives_fault _
  split
  · exact gives_fault _
  · refine gives_bind fun v => ?_
    cases v <;> exact gives_fault _

theorem gives_members {member : String → σ → Reader σ} (hmember : ∀ name s, Q s → Gives (member name s) Q)
    (fuel : Nat) (first : Bool) {s : σ} (hs : Q s) : Gives (members member fuel first s) Q := by
  induction fuel generalizing first s with
  | zero => exact gives_fault _
  | succ fuel ih =>
    refine gives_bind fun next => ?_
    cases next with
    | none => exact gives_bind fun _ => gives_pure hs
    | some name => exact (hmember name s hs).bind fun s' hs' => ih false hs'

namespace Record

variable {k : Record σ}

/-- Every field keeps the property, whatever is read for it. -/
def Keeps (k : Record σ) (Q : σ → Prop) : Prop :=
  ∀ f ∈ k.fields, ∀ levels, Gives (f.read levels) fun change => ∀ s, Q s → Q (change s)

theorem gives_member (hk : k.Keeps Q) (levels : Nat) (name : String) (s : σ × List String) (hs : Q s.1) :
    Gives (k.member levels name s) fun s' => Q s'.1 := by
  unfold member
  cases hf : k.fields.find? (·.name = name) with
  | none => exact gives_bind fun _ => gives_bind fun _ => gives_pure hs
  | some f =>
    dsimp only
    split
    · refine gives_bind fun next => ?_
      split
      · exact gives_bind fun _ => gives_fault _
      · exact gives_fault _
    · have hfield := hk f (List.mem_of_find?_eq_some hf) levels
      exact gives_bind fun _ => hfield.bind fun change hchange => gives_pure (hchange s.1 hs)

theorem gives_positional (hk : k.Keeps Q) (levels : Nat) {fs : List (Field σ)} (hfs : ∀ f ∈ fs, f ∈ k.fields) (i : Nat)
    {s : σ} (hs : Q s) : Gives (k.positional levels fs i s) Q := by
  induction fs generalizing i s with
  | nil => exact gives_bind fun _ => gives_pure hs
  | cons f fs ih =>
    refine gives_bind fun more => ?_
    split
    · have hfield := hk f (hfs f List.mem_cons_self) levels
      exact hfield.bind fun change hchange =>
        ih (fun f hf => hfs f (List.mem_cons_of_mem _ hf)) (i + 1) (hchange s hs)
    · refine gives_bind fun _ => ?_
      split
      · exact gives_fault _
      · exact gives_pure hs

/-- A record that was read has what it starts with and every field keeps. -/
theorem gives_read (hk : k.Keeps Q) (hstart : Q k.start) (levels : Nat) : Gives (k.read levels) Q := by
  refine gives_bind fun next => ?_
  cases next with
  | none => exact gives_faultAhead _
  | some b =>
    dsimp only
    split
    · cases levels with
      | zero => exact gives_faultAhead _
      | succ levels => exact gives_bind fun _ => gives_positional hk levels (fun _ hf => hf) 0 hstart
    split
    · cases levels with
      | zero => exact gives_faultAhead _
      | succ levels =>
        refine gives_bind fun _ => gives_bind fun room => ?_
        exact (gives_members (Q := fun s => Q s.1) (gives_member hk levels) room true hstart).bind fun s hs =>
          gives_pure hs
    · exact gives_unwanted _ b

theorem keeps_parse (hk : k.Keeps Q) (hstart : Q k.start) {source : Bytes} {s : σ} (h : k.parse source = .ok s) : Q s :=
  (gives_read hk hstart maxLevels).of_readAll h

end Record
end
end FrameStream.Json
