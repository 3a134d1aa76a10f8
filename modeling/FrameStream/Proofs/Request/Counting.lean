import FrameStream.Proofs.Request.Accept
import FrameStream.Proofs.Request.Fields

/-!
# Counts are read exactly or refused

However a numeral is written, and wherever it stands as the count of a request that is otherwise in order: the request
becomes a job exactly if the numeral is digits alone that fit 64 bits, and then the job asks for that many units. No
other numeral is rounded to a count. A request text is taken as it is written (`Template`): an object with the count
anywhere among its members and its name in any spelling, or a list with the count in its place.
-/

namespace FrameStream

open Json

namespace Request

/-- A request is read from a text and judged. -/
def judge (defaultModel : String) (source : Bytes) : Except Refusal Job := do
  let r ← parse source
  r.validate defaultModel

/-- The brackets of a request and what is in them, but for the value of the count. -/
inductive Body where
  | object (es : List Entry) (slot : Slot) (es' : List Entry) (gap : Blanks)
    (written : ∀ e ∈ es ++ es', Written e.value) (count : spelled slot.name = some "count")
  | list (key resource : Item) (lead after : Blanks) (is : List Item) (gap : Blanks)
    (written : ∀ i ∈ key :: resource :: is, Written i.value)

/-- The brackets with a count in them that is written as `t`. -/
def Body.bytes (t : Bytes) : Body → Bytes
  | .object es slot es' gap _ _ => objectBytes (es ++ slot.entry t :: es') gap
  | .list key resource lead after is gap _ => listBytes (key :: resource :: ⟨lead.bytes ++ t, after⟩ :: is) gap

/-- A request text but for the value of its count. -/
structure Template where
  front : Blanks
  body : Body
  back : Blanks

def Template.text (T : Template) (t : Bytes) : Bytes := T.front.bytes ++ (T.body.bytes t ++ T.back.bytes)

variable {levels : Nat} {t : Bytes} {seen : List String} {c : Option Json}

/-! ## A text but for its count -/

theorem enter?_withCount (hseen : "count" ∈ seen) (r : Request) (e : Entry) (c : Option Json) :
    record.enter? levels (withCount c r, seen) e =
      (record.enter? levels (r, seen) e).map fun s => (withCount c s.1, s.2) := by
  unfold Record.enter?
  cases spelled e.name with
  | none => rfl
  | some name =>
    simp only [Option.bind_some, Record.putText?]
    cases hf : record.fields.find? (·.name = name) with
    | none => rfl
    | some f =>
      by_cases hname : name ∈ seen
      · simp only [if_pos hname, Option.map_none]
      · have hother : f.name ≠ "count" := by
          have hfound : f.name = name := by simpa using List.find?_some hf
          rintro hcount
          exact hname (hfound.symm.trans hcount ▸ hseen)
        simp only [if_neg hname, Option.map_map]
        cases hread : alone (f.read levels) e.value with
        | none => rfl
        | some change =>
          simp only [Option.map_some, Function.comp_apply,
            change_withCount (List.mem_of_find?_eq_some hf) hother hread]

theorem mem_of_enter? {s s' : Request × List String} {e : Entry} (h : record.enter? levels s e = some s')
    (hseen : "count" ∈ s.2) : "count" ∈ s'.2 := by
  obtain ⟨name, -, rfl | ⟨f, -, -, -, change, -, rfl⟩⟩ := Record.enter?_eq_some h
  · exact hseen
  · exact List.mem_cons_of_mem _ hseen

/-- Members behind the count are read alike whatever the count is. -/
theorem foldlM_withCount (es : List Entry) (hseen : "count" ∈ seen) (r : Request) (c : Option Json) :
    es.foldlM (record.enter? levels) (withCount c r, seen) =
      (es.foldlM (record.enter? levels) (r, seen)).map fun s => (withCount c s.1, s.2) := by
  induction es generalizing r seen with
  | nil => rfl
  | cons e es ih =>
    rw [List.foldlM_cons, List.foldlM_cons, enter?_withCount hseen]
    cases hput : record.enter? levels (r, seen) e with
    | none => rfl
    | some s => exact ih (mem_of_enter? hput hseen) s.1

/-- Items behind the count are placed alike whatever the count is. -/
theorem placeTexts?_withCount {fs : List (Json.Field Request)} (hfs : ∀ f ∈ fs, f ∈ record.fields ∧ f.name ≠ "count")
    (is : List Item) (r : Request) (c : Option Json) :
    record.placeTexts? levels fs is (withCount c r) =
      (record.placeTexts? levels fs is r).map (withCount c) := by
  induction fs generalizing is r with
  | nil => cases is <;> rfl
  | cons f fs ih =>
    cases is with
    | nil => rfl
    | cons i is =>
      obtain ⟨hf, hname⟩ := hfs f List.mem_cons_self
      rw [Record.placeTexts?, Record.placeTexts?]
      cases hread : alone (f.read levels) i.value with
      | none => rfl
      | some change =>
        rw [Option.bind_some, Option.bind_some, change_withCount hf hname hread]
        exact ih (fun g hg => hfs g (List.mem_cons_of_mem _ hg)) is (change r)

/-- The member for the count puts into the request what its value says, unless a count was given before. -/
theorem count_enter? {slot : Slot} (hname : spelled slot.name = some "count") {o : Option (Option Json)}
    (ho : Takes (optional (value levels)) t o) (s : Request × List String) :
    record.enter? levels s (slot.entry t) =
      if "count" ∈ s.2 then none else o.map fun c => (withCount c s.1, "count" :: s.2) := by
  rw [Record.enter?_slot (local_record levels) rfl hname (ho.map _), Option.map_map]
  rfl

/-- The request that the parts besides the count make. -/
def Body.others : Body → Option Request
  | .object es _ es' _ _ _ => ((es.foldlM (record.enter? 126) (record.start, [])).bind fun s =>
      if "count" ∈ s.2 then none else es'.foldlM (record.enter? 126) (s.1, "count" :: s.2)).map Prod.fst
  | .list key resource _ _ is _ _ =>
    (record.placeTexts? 126 (record.fields.take 2) [key, resource] record.start).bind
      (record.placeTexts? 126 (record.fields.drop 3) is)

theorem foldlM_slot {slot : Slot} (hname : spelled slot.name = some "count") (es es' : List Entry)
    {o : Option (Option Json)} (ho : Takes (optional (value levels)) t o) :
    ((es ++ slot.entry t :: es').foldlM (record.enter? levels) (record.start, [])).map Prod.fst =
      (((es.foldlM (record.enter? levels) (record.start, [])).bind fun s =>
        if "count" ∈ s.2 then none else es'.foldlM (record.enter? levels) (s.1, "count" :: s.2)).map Prod.fst).bind
          fun r => o.map fun c => withCount c r := by
  rw [List.foldlM_append]
  cases es.foldlM (record.enter? levels) (record.start, []) with
  | none => rfl
  | some s =>
    simp only [Option.bind_eq_bind, Option.bind_some, List.foldlM_cons, count_enter? hname ho]
    by_cases hseen : "count" ∈ s.2
    · simp only [if_pos hseen]
      rfl
    · simp only [if_neg hseen]
      cases o with
      | none => cases es'.foldlM (record.enter? levels) (s.1, "count" :: s.2) <;> rfl
      | some c =>
        rw [Option.map_some, Option.bind_some, foldlM_withCount es' List.mem_cons_self]
        cases es'.foldlM (record.enter? levels) (s.1, "count" :: s.2) <;> rfl

theorem placeTexts?_slot (key resource : Item) (lead after : Blanks) (is : List Item) {o : Option (Option Json)}
    (ho : Takes (optional (value levels)) t o) :
    record.placeTexts? levels record.fields (key :: resource :: ⟨lead.bytes ++ t, after⟩ :: is) record.start =
      ((record.placeTexts? levels (record.fields.take 2) [key, resource] record.start).bind
        (record.placeTexts? levels (record.fields.drop 3) is)).bind fun r => o.map fun c => withCount c r := by
  have hread : alone (optional (value levels)) (lead.bytes ++ t) = o :=
    (ho.blanks (blind_optional _) lead).eq_alone
  have hlast : ∀ f ∈ record.fields.drop 3, f ∈ record.fields ∧ f.name ≠ "count" := by
    intro f hf
    refine ⟨List.mem_of_mem_drop hf, ?_⟩
    obtain rfl := List.mem_singleton.mp hf
    decide
  have hfields : record.fields = record.fields.take 2 ++
      { name := "count", read := fun levels => (fun v r => { r with count := v }) <$> optional (value levels) } ::
        record.fields.drop 3 := rfl
  have hitems : key :: resource :: ⟨lead.bytes ++ t, after⟩ :: is =
      [key, resource] ++ ⟨lead.bytes ++ t, after⟩ :: is := rfl
  rw [hfields, hitems, Record.placeTexts?_append rfl, ← hfields, Option.bind_assoc]
  refine Option.bind_congr fun r _ => ?_
  rw [Record.placeTexts?, alone_map, hread]
  cases o with
  | none => cases record.placeTexts? levels (record.fields.drop 3) is r <;> rfl
  | some c =>
    rw [Option.map_some, Option.bind_some]
    refine (placeTexts?_withCount hlast is r c).trans ?_
    cases record.placeTexts? levels (record.fields.drop 3) is r <;> rfl

/-- A text but for its count reads as one request but for its count. -/
theorem takes_body (b : Body) {o : Option (Option Json)} (ht : Written t) (ho : Takes (optional (value 126)) t o) :
    Takes (record.read 127) (b.bytes t) (b.others.bind fun r => o.map fun c => withCount c r) := by
  cases b with
  | object es slot es' gap written count =>
    rw [Body.others, ← foldlM_slot count es es' ho]
    exact Record.takes_object (local_record 126) (written_slot written slot ht) gap
  | list key resource lead after is gap written =>
    obtain ⟨hkey, hrest⟩ := List.forall_mem_cons.mp written
    obtain ⟨hresource, his⟩ := List.forall_mem_cons.mp hrest
    rw [Body.others, ← placeTexts?_slot key resource lead after is ho]
    exact Record.takes_list (local_record 126) (List.forall_mem_cons.mpr ⟨hkey, List.forall_mem_cons.mpr ⟨hresource,
      List.forall_mem_cons.mpr ⟨ht.blanks lead, his⟩⟩⟩) gap

theorem toOption_parse_text (T : Template) {o : Option (Option Json)} (ht : Written t)
    (ho : Takes (optional (value 126)) t o) :
    (parse (T.text t)).toOption = T.body.others.bind fun r => o.map fun c => withCount c r :=
  toOption_parse (takes_body T.body ht ho) T.front T.back

/-! ## Judging -/

/-- The job of a request with another count is the same job but for what it requests. -/
theorem validate_withCount {r : Request} {defaultModel : String} {job : Job} (h : r.validate defaultModel = .ok job)
    (c : Option Json) : (withCount c r).validate defaultModel =
      (validCount c).map fun n => { job with requested := n } := by
  obtain ⟨key, hkey, h⟩ := exists_of_bind_eq_ok h
  obtain ⟨resource, hresource, h⟩ := exists_of_bind_eq_ok h
  obtain ⟨requested, -, h⟩ := exists_of_bind_eq_ok h
  obtain ⟨model, hmodel, h⟩ := exists_of_bind_eq_ok h
  cases h
  show (validKey r.key >>= fun key => validResource r.resource >>= fun resource => validCount c >>= fun requested =>
    validModel defaultModel r.model >>= fun model =>
      (pure { key, resource, requested, model } : Except Refusal Job)) = _
  rw [hkey, hresource, hmodel]
  cases validCount c <;> rfl

theorem validCount_number {x : Number} (h : (Json.number x).natural? = none) :
    validCount (some (.number x)) = .error (.badCount (.number x)) := by
  simp only [validCount, h]

section
variable {T : Template} {ℓ : Numeral} {defaultModel : String} {job : Job}

/-- A text that is accepted without a count is judged by what is made of its numeral. -/
theorem judge_text (h : judge defaultModel (T.text (Byte.letterN :: restOfNull)) = .ok job)
    {o : Option Number} (ho : Takes numeral ℓ.bytes o) :
    (∀ x, o = some x → judge defaultModel (T.text ℓ.bytes) =
      (validCount (some (.number x))).map fun n => { job with requested := n }) ∧
    (o = none → ∃ refusal, judge defaultModel (T.text ℓ.bytes) = .error refusal) := by
  obtain ⟨r, hr, hjob⟩ := exists_of_bind_eq_ok h
  have hnull := toOption_parse_text T .null (takes_optional_null (value 126))
  have hread := toOption_parse_text T (.numeral ℓ) (takes_optional_numeral ℓ)
  rw [hr] at hnull
  obtain ⟨r', hr', hnone⟩ := Option.bind_eq_some_iff.mp hnull.symm
  cases hnone
  rw [hr', Option.bind_some, ho.eq_alone] at hread
  constructor
  · rintro x rfl
    have hparse : parse (T.text ℓ.bytes) = .ok (withCount (some (.number x)) r') := ok_of_toOption hread
    rw [judge, hparse]
    exact validate_withCount hjob (some (.number x))
  · rintro rfl
    cases hp : parse (T.text ℓ.bytes) with
    | error refusal => exact ⟨refusal, by rw [judge, hp]; rfl⟩
    | ok r =>
      rw [hp] at hread
      cases hread

/-- A count is accepted exactly if it is written in digits alone and fits 64 bits; it is then taken as it is, and every
other numeral is refused. The text is one that would be accepted with null for its count. -/
theorem count_exact_or_refused (h : judge defaultModel (T.text (Byte.letterN :: restOfNull)) = .ok job) (ℓ : Numeral) :
    ((∃ job', judge defaultModel (T.text ℓ.bytes) = .ok job') ↔ ℓ.IsCount) ∧
    (∀ job', judge defaultModel (T.text ℓ.bytes) = .ok job' → job' = { job with requested := some ℓ.value }) ∧
    (¬ ℓ.IsCount → ∃ refusal reason, judge defaultModel (T.text ℓ.bytes) = .error refusal ∧
      refusal.error = .invalid reason) := by
  by_cases hcount : ℓ.IsCount
  · have hjob : judge defaultModel (T.text ℓ.bytes) = .ok { job with requested := some ℓ.value } :=
      (judge_text h (ℓ.takes_numeral_of_isCount hcount)).1 _ rfl
    refine ⟨iff_of_true ⟨_, hjob⟩ hcount, fun job' hjob' => ?_, fun hnot => absurd hcount hnot⟩
    exact Except.ok.inj (hjob'.symm.trans hjob)
  · have hrefused : ∃ refusal, judge defaultModel (T.text ℓ.bytes) = .error refusal := by
      obtain ⟨o, ho, hother⟩ := ℓ.takes_numeral_of_not_isCount hcount
      cases o with
      | none => exact (judge_text h ho).2 rfl
      | some x =>
        refine ⟨.badCount (.number x), ?_⟩
        rw [(judge_text h ho).1 x rfl, validCount_number (hother x rfl)]
        rfl
    obtain ⟨refusal, hrefusal⟩ := hrefused
    have hno : ∀ job', judge defaultModel (T.text ℓ.bytes) ≠ .ok job' := by
      intro job' hjob'
      rw [hrefusal] at hjob'
      cases hjob'
    exact ⟨iff_of_false (fun ⟨job', hjob'⟩ => hno job' hjob') hcount, fun job' hjob' => absurd hjob' (hno job'),
      fun _ => ⟨refusal, _, hrefusal, rfl⟩⟩

end

/-- A key, a count whose name is written with an escape, and a reference. -/
def escaped : Template where
  front := Blanks.none
  body := .object
    [⟨Blanks.none, plainly [0x6B, 0x65, 0x79] (by decide), Blanks.none,
      Byte.quoteMark :: enclosed (plainly [0x6B] (by decide)), Blanks.none⟩]
    ⟨⟨[0x0A], List.all_eq_true.mp rfl⟩,
      .code 0x30 0x30 0x36 0x33 0x63 (by decide) :: plainly [0x6F, 0x75, 0x6E, 0x74] (by decide), Blanks.none,
      ⟨[0x20], List.all_eq_true.mp rfl⟩, ⟨[0x20], List.all_eq_true.mp rfl⟩⟩
    [⟨Blanks.none, plainly (Bytes.ofText "resource") (by decide), Blanks.none,
      Byte.quoteMark :: enclosed (plainly [0x76] (by decide)), Blanks.none⟩]
    Blanks.none
    (List.forall_mem_cons.mpr ⟨.string _, List.forall_mem_singleton.mpr (.string _)⟩) (by decide)
  back := ⟨[0x0A], List.all_eq_true.mp rfl⟩

/-- The largest count, and a numeral that is no count although its value is one. -/
def largest : Numeral where
  negative := false
  whole := Bytes.ofText "18446744073709551615"
  fraction := none
  exponent := none
  isWhole := ⟨by decide, List.all_eq_true.mp rfl⟩
  leading := by decide
  isFraction := forall_mem_none_digits

def hundred : Numeral where
  negative := false
  whole := [0x31]
  fraction := none
  exponent := some ⟨0x65, none, [0x32], rfl, (fun _ h => nomatch h), ⟨by decide, List.all_eq_true.mp rfl⟩⟩
  isWhole := ⟨by decide, List.all_eq_true.mp rfl⟩
  leading := by decide
  isFraction := forall_mem_none_digits

theorem escaped_count_read :
    judge "echo" (escaped.text largest.bytes) = .ok ⟨"k", "v", some (2 ^ 64 - 1), "echo"⟩ ∧
    ∃ refusal reason, judge "echo" (escaped.text hundred.bytes) = .error refusal ∧ refusal.error = .invalid reason := by
  have hnull : judge "echo" (escaped.text (Byte.letterN :: restOfNull)) = .ok ⟨"k", "v", none, "echo"⟩ :=
    ok_of_toOption (by decide)
  have hlargest : largest.IsCount := ⟨rfl, rfl, rfl, by decide⟩
  have hvalue : largest.value = 2 ^ 64 - 1 := by decide
  obtain ⟨haccepted, hjob, -⟩ := count_exact_or_refused hnull largest
  obtain ⟨-, -, hrefused⟩ := count_exact_or_refused hnull hundred
  obtain ⟨job', hjob'⟩ := haccepted.mpr hlargest
  refine ⟨?_, hrefused fun h => nomatch h.noExponent⟩
  rw [hjob', hjob job' hjob', hvalue]

end Request
end FrameStream
