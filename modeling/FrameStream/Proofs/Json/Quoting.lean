import Mathlib.Data.List.Basic
import FrameStream.Proofs.Json.Spelling

/-!
# Quoted strings read back

The quoted form of a string is written in pieces that spell just that string, whatever characters it has (`quoted`). So
it is read back as the string, and the reader stops right after the closing quote. Character by character: an escape
stands for its character, and every other character is written as its own bytes, none of which the reader would take for
a quote, a backslash or a control character.
-/

namespace FrameStream

theorem Bytes.ofText_ofList (cs : List Char) :
    Bytes.ofText (String.ofList cs) = cs.flatMap String.utf8EncodeChar := by
  rw [Bytes.ofText, String.toUTF8_eq_toByteArray, String.toByteArray_ofList, List.utf8Encode, List.data_toByteArray]

theorem Bytes.ofText_eq (s : String) : Bytes.ofText s = s.toList.flatMap String.utf8EncodeChar := by
  rw [← Bytes.ofText_ofList, String.ofList_toList]

namespace Json

/-! ## Characters -/

theorem utf8EncodeChar_low {c : Char} (h : c.toNat < 0x80) : String.utf8EncodeChar c = [UInt8.ofNat c.toNat] := by
  have hle : c.val.toNat ≤ 127 := Nat.le_of_lt_succ h
  unfold String.utf8EncodeChar
  simp only [hle, if_true]
  rfl

theorem utf8EncodeChar_high {c : Char} (h : 0x80 ≤ c.toNat) : ∀ b ∈ String.utf8EncodeChar c, 0x80 ≤ b := by
  have hgt : ¬ c.val.toNat ≤ 127 := Nat.not_le_of_lt h
  intro b hb
  rw [UInt8.le_iff_toNat_le]
  unfold String.utf8EncodeChar at hb
  simp only [hgt, if_false] at hb
  split at hb
  · simp only [List.mem_cons, List.not_mem_nil, or_false] at hb
    rcases hb with rfl | rfl <;> simp <;> omega
  · split at hb
    · simp only [List.mem_cons, List.not_mem_nil, or_false] at hb
      rcases hb with rfl | rfl | rfl <;> simp <;> omega
    · simp only [List.mem_cons, List.not_mem_nil, or_false] at hb
      rcases hb with rfl | rfl | rfl | rfl <;> simp <;> omega

/-- A character that is not escaped is written in bytes that stand for themselves. -/
theorem isPlain_utf8EncodeChar {c : Char} (hquote : c ≠ '"') (hback : c ≠ '\\') (hcontrol : ¬ c.toNat < 0x20) :
    ∀ b ∈ String.utf8EncodeChar c, Byte.isPlain b = true := by
  intro b hb
  by_cases hlow : c.toNat < 0x80
  · rw [utf8EncodeChar_low hlow, List.mem_singleton] at hb
    have hvalue : b.toNat = c.toNat := by
      rw [hb, UInt8.toNat_ofNat']
      omega
    have hne : ∀ d : Char, c ≠ d → b.toNat ≠ d.toNat := fun d hcd heq => hcd (Char.toNat_inj.mp (hvalue ▸ heq))
    simp only [Byte.isPlain, Bool.and_eq_true, bne_iff_ne, decide_eq_true_eq]
    refine ⟨⟨fun h => hne '"' hquote (h ▸ rfl), fun h => hne '\\' hback (h ▸ rfl)⟩, ?_⟩
    rw [UInt8.le_iff_toNat_le, hvalue]
    exact Nat.le_of_not_lt hcontrol
  · have hhigh := utf8EncodeChar_high (Nat.le_of_not_lt hlow) b hb
    rw [UInt8.le_iff_toNat_le] at hhigh
    simp only [Byte.isPlain, Bool.and_eq_true, bne_iff_ne, decide_eq_true_eq, UInt8.le_iff_toNat_le]
    exact ⟨⟨fun h => absurd (h ▸ hhigh) (by decide), fun h => absurd (h ▸ hhigh) (by decide)⟩,
      Nat.le_trans (by decide) hhigh⟩

theorem hex?_hexDigit (n : Nat) :
    ∃ b, String.utf8EncodeChar (hexDigit n) = [b] ∧ Byte.hex? b = some (n % 16) := by
  have hdigits : ∀ k < 16, (Nat.digitChar k).toNat < 0x80 ∧
      Byte.hex? (UInt8.ofNat (Nat.digitChar k).toNat) = some k := by decide
  obtain ⟨hlow, hhex⟩ := hdigits (n % 16) (Nat.mod_lt n (by decide))
  exact ⟨_, utf8EncodeChar_low hlow, hhex⟩

/-- A control character is written with its code. -/
theorem control_bytes {c : Char} (h : c.toNat < 0x20) : ∃ high low,
    ['\\', 'u', '0', '0', hexDigit (c.toNat / 16), hexDigit c.toNat].flatMap String.utf8EncodeChar =
      [Byte.backslash, Byte.letterU, 0x30, 0x30, high, low] ∧ Byte.hex4? 0x30 0x30 high low = some c.toNat := by
  obtain ⟨high, hhigh, hhigh'⟩ := hex?_hexDigit (c.toNat / 16)
  obtain ⟨low, hlow, hlow'⟩ := hex?_hexDigit c.toNat
  refine ⟨high, low, ?_, ?_⟩
  · simp only [List.flatMap_cons, List.flatMap_nil, hhigh, hlow]
    rfl
  · have hzero : Byte.hex? 0x30 = some 0 := by decide
    simp only [Byte.hex4?, hzero, hhigh', hlow', Option.some.injEq]
    omega

/-! ## Pieces -/

/-- The pieces spell the bytes, whatever is spelled before and after them. -/
def Spells (ps : List Piece) (bs : Bytes) : Prop :=
  ∀ acc qs, spelledAfter acc (ps ++ qs) = spelledAfter (bs.reverse ++ acc) qs

theorem Spells.append {ps qs : List Piece} {bs cs : Bytes} (hps : Spells ps bs) (hqs : Spells qs cs) :
    Spells (ps ++ qs) (bs ++ cs) := by
  intro acc rest
  rw [List.append_assoc, hps, hqs, List.reverse_append, List.append_assoc]

theorem spells_plainly {bs : Bytes} (h : bs.all Byte.isPlain = true) : Spells (plainly bs h) bs := by
  have hall : ∀ (bs : Bytes) (h : ∀ b ∈ bs, Byte.isPlain b = true), Spells (bs.pmap Piece.plain h) bs := by
    intro bs
    induction bs with
    | nil => exact fun _ _ _ => rfl
    | cons b bs ih =>
      intro h acc qs
      have hrest := ih (fun c hc => h c (List.mem_cons_of_mem _ hc)) (b :: acc) qs
      rw [List.reverse_cons, List.append_assoc, List.singleton_append, ← hrest]
      rfl
  exact hall bs _

/-- An escape of one letter spells its character. -/
theorem exists_spells_letter {c d : Char} {b e : UInt8} (hd : String.utf8EncodeChar d = [e])
    (hc : String.utf8EncodeChar c = [b]) (he : simpleEscape? e = some b) :
    ∃ ps : List Piece, ['\\', d].flatMap String.utf8EncodeChar = ps.flatMap Piece.bytes ∧
      Spells ps (String.utf8EncodeChar c) := by
  refine ⟨[.escape e b he], ?_, fun acc qs => by rw [hc]; rfl⟩
  rw [List.flatMap_cons, List.flatMap_singleton, hd, List.flatMap_singleton]
  rfl

theorem exists_spells_control {c : Char} (h : c.toNat < 0x20) : ∃ ps : List Piece,
    ['\\', 'u', '0', '0', hexDigit (c.toNat / 16), hexDigit c.toNat].flatMap String.utf8EncodeChar =
      ps.flatMap Piece.bytes ∧ Spells ps (String.utf8EncodeChar c) := by
  obtain ⟨high, low, hbytes, hcode⟩ := control_bytes h
  refine ⟨[.code 0x30 0x30 high low c.toNat hcode], hbytes, fun acc qs => ?_⟩
  have htrailing : isTrailing c.toNat = false := by
    simp only [isTrailing, Bool.and_eq_false_iff, decide_eq_false_iff_not]
    omega
  have hleading : isLeading c.toNat = false := by
    simp only [isLeading, Bool.and_eq_false_iff, decide_eq_false_iff_not]
    omega
  have hbytes : utf8 c.toNat = String.utf8EncodeChar c := by
    rw [utf8, Char.ofNat_toNat, Bytes.ofText_eq, String.toList_singleton, List.flatMap_singleton]
  rw [List.singleton_append, spelledAfter.eq_def]
  simp only [htrailing, hleading, hbytes, Bool.false_eq_true, if_false]

/-- An escaped character is written in pieces that spell it. -/
theorem exists_spells_escape (c : Char) : ∃ ps : List Piece,
    (escape c).flatMap String.utf8EncodeChar = ps.flatMap Piece.bytes ∧ Spells ps (String.utf8EncodeChar c) := by
  unfold escape
  split
  · rename_i h
    exact exists_spells_letter (e := 0x22) rfl (h ▸ rfl) rfl
  split
  · rename_i h
    exact exists_spells_letter (e := 0x5C) rfl (h ▸ rfl) rfl
  split
  · rename_i h
    exact exists_spells_letter (e := 0x62) rfl (h ▸ rfl) rfl
  split
  · rename_i h
    exact exists_spells_letter (e := 0x66) rfl (h ▸ rfl) rfl
  split
  · rename_i h
    exact exists_spells_letter (e := 0x6E) rfl (h ▸ rfl) rfl
  split
  · rename_i h
    exact exists_spells_letter (e := 0x72) rfl (h ▸ rfl) rfl
  split
  · rename_i h
    exact exists_spells_letter (e := 0x74) rfl (h ▸ rfl) rfl
  split
  · exact exists_spells_control ‹_›
  · have hplain := List.all_eq_true.mpr (isPlain_utf8EncodeChar ‹_› ‹_› ‹_›)
    rw [List.flatMap_singleton]
    exact ⟨plainly _ hplain, (bytes_plainly hplain).symm, spells_plainly hplain⟩

theorem exists_spells_escapes (cs : List Char) : ∃ ps : List Piece,
    (cs.flatMap escape).flatMap String.utf8EncodeChar = ps.flatMap Piece.bytes ∧
      Spells ps (cs.flatMap String.utf8EncodeChar) := by
  induction cs with
  | nil => exact ⟨[], rfl, fun _ _ => rfl⟩
  | cons c cs ih =>
    obtain ⟨ps, hps, hspells⟩ := exists_spells_escape c
    obtain ⟨qs, hqs, hrest⟩ := ih
    refine ⟨ps ++ qs, ?_, hspells.append hrest⟩
    rw [List.flatMap_cons, List.flatMap_append, List.flatMap_append, hps, hqs]

/-! ## Strings -/

theorem exists_pieces_quote (s : String) :
    ∃ ps : List Piece, Bytes.ofText (quote s) = Byte.quoteMark :: enclosed ps ∧ spelled ps = some s := by
  obtain ⟨ps, hps, hspells⟩ := exists_spells_escapes s.toList
  have hmark : Bytes.ofText "\"" = [Byte.quoteMark] := by decide
  have hinner := Bytes.ofText_ofList (s.toList.flatMap escape)
  have hall := hspells [] []
  rw [List.append_nil, List.append_nil, ← Bytes.ofText_eq] at hall
  refine ⟨ps, ?_, ?_⟩
  · rw [quote, Bytes.ofText_append, Bytes.ofText_append, hmark, hinner, hps, enclosed]
    rfl
  · rw [spelled, hall, spelledAfter, List.reverse_reverse, Option.bind_some, Bytes.text?_ofText]

/-- The pieces in which the quoted form of a text is written. -/
noncomputable def quoted (s : String) : List Piece := (exists_pieces_quote s).choose

theorem ofText_quote (s : String) : Bytes.ofText (quote s) = Byte.quoteMark :: enclosed (quoted s) :=
  (exists_pieces_quote s).choose_spec.1

theorem spelled_quoted (s : String) : spelled (quoted s) = some s := (exists_pieces_quote s).choose_spec.2

end Json
end FrameStream
