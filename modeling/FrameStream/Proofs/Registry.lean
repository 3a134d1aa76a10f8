import Mathlib.Data.List.Induction
import FrameStream.Proofs.NameTable
import FrameStream.Proofs.Request.Accept
import FrameStream.Proofs.Unicode.Lowercase
import FrameStream.Service.Admission

/-!
# Names of models

However a registry was filled, a name stands in it for the processor registered last under the same name in lower case
(`LastUnder`). Every way to ask for a processor finds that one or none: lower case of lower case changes nothing, so a
job that keeps its model in lower case finds what its request asked for.
-/

namespace FrameStream

/-- The registrations hold `p` under `low`, and no later one is under `low`. -/
def LastUnder (es : List (String × Processor)) (low : String) (p : Processor) : Prop :=
  ∃ before name after, es = before ++ (name, p) :: after ∧ Unicode.lowercase name = low ∧
    ∀ e ∈ after, Unicode.lowercase e.1 ≠ low

/-- One more registration takes the place of those under the same name in lower case. -/
theorem lastUnder_snoc {es : List (String × Processor)} {name low : String} {p q : Processor} :
    LastUnder (es ++ [(name, p)]) low q ↔
      (low = Unicode.lowercase name ∧ p = q) ∨ (low ≠ Unicode.lowercase name ∧ LastUnder es low q) := by
  constructor
  · rintro ⟨before, n, after, heq, hlow, hlast⟩
    rcases List.eq_nil_or_concat' after with rfl | ⟨after', e, rfl⟩
    · obtain ⟨-, heq⟩ := List.append_inj' heq rfl
      cases heq
      exact .inl ⟨hlow.symm, rfl⟩
    · rw [← List.cons_append, ← List.append_assoc] at heq
      obtain ⟨hes, heq⟩ := List.append_inj' heq rfl
      cases heq
      obtain ⟨hlast, hne⟩ := List.forall_mem_append.mp hlast
      exact .inr ⟨(hne (name, p) List.mem_cons_self).symm, before, n, after', hes, hlow, hlast⟩
  · rintro (⟨rfl, rfl⟩ | ⟨hne, before, n, after, rfl, hlow, hlast⟩)
    · exact ⟨es, name, [], rfl, rfl, List.forall_mem_nil _⟩
    · refine ⟨before, n, after ++ [(name, p)], by rw [List.append_assoc, List.cons_append], hlow, ?_⟩
      exact List.forall_mem_append.mpr ⟨hlast, List.forall_mem_singleton.mpr hne.symm⟩

namespace Registry

/-- The registry after these registrations in their order. -/
def ofEntries (es : List (String × Processor)) : Registry := es.foldl (fun r e => r.register e.1 e.2) empty

theorem ofEntries_snoc (es : List (String × Processor)) (e : String × Processor) :
    ofEntries (es ++ [e]) = (ofEntries es).register e.1 e.2 := by
  rw [ofEntries, List.foldl_append]
  rfl

theorem ascending_ofEntries (es : List (String × Processor)) : (ofEntries es).table.Ascending := by
  induction es using List.reverseRecOn with
  | nil => exact List.Pairwise.nil
  | append_singleton es e ih =>
    rw [ofEntries_snoc]
    exact NameTable.ascending_insert ih

theorem mem_names_ofEntries {es : List (String × Processor)} {n : String} :
    n ∈ (ofEntries es).names ↔ ∃ e ∈ es, Unicode.lowercase e.1 = n := by
  induction es using List.reverseRecOn with
  | nil => exact iff_of_false List.not_mem_nil fun ⟨_, he, _⟩ => nomatch he
  | append_singleton es e ih =>
    rw [ofEntries_snoc]
    refine NameTable.mem_names_insert.trans ?_
    simp only [List.mem_append, List.mem_singleton, or_and_right, exists_or, exists_eq_left]
    exact or_comm.trans (or_congr ih eq_comm)

/-- What stands under a name is what was registered last under it. -/
theorem get?_ofEntries {es : List (String × Processor)} {low : String} {p : Processor} :
    (ofEntries es).table.get? low = some p ↔ LastUnder es low p := by
  induction es using List.reverseRecOn with
  | nil =>
    refine iff_of_false (fun h => nomatch h) ?_
    rintro ⟨before, n, after, heq, -⟩
    exact absurd heq (by simp)
  | append_singleton es e ih =>
    obtain ⟨name, q⟩ := e
    rw [ofEntries_snoc, lastUnder_snoc, ← ih]
    exact NameTable.get?_insert_eq_some

/-- Every way to ask for a processor by this name finds `p`. -/
structure Knows (r : Registry) (name : String) (p : Processor) : Prop where
  get : r.get? name = some p
  resolve : r.resolve name = .ok p
  metadata : r.metadata name = .ok p.metadata

/-- No way to ask for a processor by this name finds one. -/
structure Lacks (r : Registry) (name : String) : Prop where
  get : r.get? name = none
  resolve : r.resolve name = .error (.unknownModel name)
  metadata : r.metadata name = .error (.missing "Model" name)

variable {r : Registry} {name : String}

theorem knows_of_get? {p : Processor} (h : r.get? name = some p) : r.Knows name p :=
  ⟨h, by rw [resolve, h], by rw [metadata, h]⟩

theorem lacks_of_get? (h : r.get? name = none) : r.Lacks name :=
  ⟨h, by rw [resolve, h], by rw [metadata, h]⟩

/-- A registry finds the same under a name and under the name in lower case. -/
theorem get?_lowercase (r : Registry) (name : String) : r.get? (Unicode.lowercase name) = r.get? name := by
  rw [get?, get?, Unicode.lowercase_lowercase]

theorem exists_knows (h : Unicode.lowercase name ∈ r.names) : ∃ p, r.Knows name p := by
  cases hp : r.get? name with
  | some p => exact ⟨p, knows_of_get? hp⟩
  | none => exact absurd h (NameTable.not_mem_names hp)

theorem lacks_of_not_mem (h : Unicode.lowercase name ∉ r.names) : r.Lacks name := by
  cases hp : r.get? name with
  | some p => exact absurd (List.mem_map_of_mem (NameTable.mem_of_get? hp)) h
  | none => exact lacks_of_get? hp

end Registry

namespace Request

/-- The name of the model a request asks for. -/
def wanted (r : Request) (defaultModel : String) : String := (r.model.map Unicode.trim).getD defaultModel

/-- A model name that is not refused for its length. -/
def Nameable (r : Request) : Prop :=
  ∀ m, r.model = some m → Unicode.trim m ≠ "" ∧ (Unicode.trim m).utf8ByteSize ≤ maxModelLength

variable {r : Request} {defaultModel : String} {job : Job}

theorem validModel_wanted (h : r.Nameable) :
    validModel defaultModel r.model = .ok (Unicode.lowercase (r.wanted defaultModel)) := by
  unfold wanted
  cases hm : r.model with
  | none => rfl
  | some m =>
    obtain ⟨hblank, hlong⟩ := h m hm
    simp only [validModel, if_neg hblank, if_neg (Nat.not_lt.mpr hlong)]
    rfl

/-- A request that is fine but for its model is fine, and its job has the model it asks for in lower case. -/
theorem validate_wanted (h : r.Nameable) (hrest : { r with model := none }.validate defaultModel = .ok job) :
    r.validate defaultModel = .ok { job with model := Unicode.lowercase (r.wanted defaultModel) } := by
  obtain ⟨key, hkey, hrest⟩ := exists_of_bind_eq_ok hrest
  obtain ⟨resource, hresource, hrest⟩ := exists_of_bind_eq_ok hrest
  obtain ⟨requested, hcount, hrest⟩ := exists_of_bind_eq_ok hrest
  obtain ⟨model, -, hrest⟩ := exists_of_bind_eq_ok hrest
  cases hrest
  dsimp only at hkey hresource hcount
  rw [validate, hkey, hresource, hcount, validModel_wanted h]
  rfl

theorem admission_of_knows {registry : Registry} {config : ServiceConfig} {p : Processor} (h : r.Nameable)
    (hrest : { r with model := none }.validate config.defaultModel = .ok job)
    (hp : registry.Knows (r.wanted config.defaultModel) p) :
    r.admission config registry true =
      .ok ({ job with model := Unicode.lowercase (r.wanted config.defaultModel) }, p) := by
  have hresolve : registry.resolve (Unicode.lowercase (r.wanted config.defaultModel)) = .ok p :=
    (Registry.knows_of_get? ((registry.get?_lowercase _).trans hp.get)).resolve
  have haccept : r.accept config.defaultModel registry =
      .ok ({ job with model := Unicode.lowercase (r.wanted config.defaultModel) }, p) := by
    rw [accept, validate_wanted h hrest]
    simp only [bind, Except.bind, hresolve]
    rfl
  rw [admission, haccept]
  rfl

theorem admission_of_lacks {registry : Registry} {config : ServiceConfig} (taken : Bool) (h : r.Nameable)
    (hrest : { r with model := none }.validate config.defaultModel = .ok job)
    (hp : registry.Lacks (r.wanted config.defaultModel)) :
    r.admission config registry taken =
      .error (.invalid r.key (Refusal.unknownModel (Unicode.lowercase (r.wanted config.defaultModel))).error) := by
  have hresolve := (Registry.lacks_of_get? ((registry.get?_lowercase _).trans hp.get)).resolve
  have haccept : r.accept config.defaultModel registry =
      .error (.unknownModel (Unicode.lowercase (r.wanted config.defaultModel))) := by
    rw [accept, validate_wanted h hrest]
    simp only [bind, Except.bind, hresolve]
  rw [admission, haccept]

end Request

namespace Registry

/-- However a registry was filled, its names are in order, each once and in lower case, and a name means the same
wherever it is given: to the registry, in the model of a request, or as the default model. -/
theorem names_mean_the_same (es : List (String × Processor)) :
    (ofEntries es).names.Pairwise (· < ·) ∧
    (∀ n, n ∈ (ofEntries es).names ↔ ∃ e ∈ es, Unicode.lowercase e.1 = n) ∧
    (∀ name, Unicode.lowercase name ∈ (ofEntries es).names →
      ∃ p, LastUnder es (Unicode.lowercase name) p ∧ (ofEntries es).Knows name p) ∧
    (∀ name, Unicode.lowercase name ∉ (ofEntries es).names → (ofEntries es).Lacks name) ∧
    (∀ name, (ofEntries es).get? (Unicode.lowercase name) = (ofEntries es).get? name) ∧
    ∀ (r : Request) (config : ServiceConfig) (job : Job), r.Nameable →
      { r with model := none }.validate config.defaultModel = .ok job →
      (Unicode.lowercase (r.wanted config.defaultModel) ∈ (ofEntries es).names →
        ∃ p, LastUnder es (Unicode.lowercase (r.wanted config.defaultModel)) p ∧
          (ofEntries es).Knows (r.wanted config.defaultModel) p ∧
          r.admission config (ofEntries es) true =
            .ok ({ job with model := Unicode.lowercase (r.wanted config.defaultModel) }, p)) ∧
      (Unicode.lowercase (r.wanted config.defaultModel) ∉ (ofEntries es).names →
        r.admission config (ofEntries es) true = .error
          (.invalid r.key (Refusal.unknownModel (Unicode.lowercase (r.wanted config.defaultModel))).error)) := by
  have hknown : ∀ name, Unicode.lowercase name ∈ (ofEntries es).names →
      ∃ p, LastUnder es (Unicode.lowercase name) p ∧ (ofEntries es).Knows name p := fun name h => by
    obtain ⟨p, hp⟩ := exists_knows h
    exact ⟨p, get?_ofEntries.mp hp.get, hp⟩
  refine ⟨ascending_ofEntries es, fun n => mem_names_ofEntries, hknown, fun _ h => lacks_of_not_mem h,
    (ofEntries es).get?_lowercase, fun r config job hname hrest => ⟨fun h => ?_, fun h => ?_⟩⟩
  · obtain ⟨p, hlast, hp⟩ := hknown _ h
    exact ⟨p, hlast, hp, Request.admission_of_knows hname hrest hp⟩
  · exact Request.admission_of_lacks true hname hrest (lacks_of_not_mem h)

/-- Three names of which the first and the last are the same in lower case. -/
def sigmaEntries : List (String × Processor) :=
  [("ΟΔΟΣ", Echo.processor), ("οδοσ", Echo.processor), ("Οδος", Invert.processor)]

/-- A request in capitals and between blanks, with the processor that was registered last. -/
theorem final_sigma_admitted :
    ({ key := some "k", resource := some "r", model := some "\u3000ΟΔΟΣ\n" } : Request).admission {}
      (ofEntries sigmaEntries) true =
      .ok ({ key := "k", resource := "r", requested := none, model := "οδος" }, Invert.processor) := by
  obtain ⟨-, -, -, -, -, hadmitted⟩ := names_mean_the_same sigmaEntries
  obtain ⟨p, hlast, -, hp⟩ := (hadmitted { key := some "k", resource := some "r", model := some "\u3000ΟΔΟΣ\n" } {}
    { key := "k", resource := "r", requested := none, model := Unicode.lowercase Invert.name }
    (fun m hm => by cases hm; decide +kernel) rfl).1
    (mem_names_ofEntries.mpr ⟨_, List.mem_cons_self, by decide +kernel⟩)
  have hlow : Unicode.lowercase (({ model := some "\u3000ΟΔΟΣ\n" } : Request).wanted Invert.name) = "οδος" := by
    decide +kernel
  have hinvert : LastUnder sigmaEntries "οδος" Invert.processor :=
    ⟨[("ΟΔΟΣ", Echo.processor), ("οδοσ", Echo.processor)], "Οδος", [], rfl, by decide +kernel, List.forall_mem_nil _⟩
  obtain rfl : p = Invert.processor :=
    Option.some.inj ((get?_ofEntries.mpr hlast).symm.trans (get?_ofEntries.mpr (hlow ▸ hinvert)))
  rw [hp]
  exact congrArg (fun low => Except.ok ((⟨"k", "r", none, low⟩ : Job), Invert.processor)) hlow

end Registry
end FrameStream
