/-!
# Where events lead

A system that takes one event after another, each only where it can happen, comes from one state to another by some
events or by none.
-/

namespace FrameStream

/-- Some events lead from one state to another. -/
def Leads {σ ε : Type} (step? : σ → ε → Option σ) (s s' : σ) : Prop := ∃ es : List ε, es.foldlM step? s = some s'

namespace Leads

variable {σ ε : Type} {step? : σ → ε → Option σ} {s s' s'' : σ} {e : ε}

theorem refl (s : σ) : Leads step? s s := ⟨[], rfl⟩

theorem one (h : step? s e = some s') : Leads step? s s' := by
  refine ⟨[e], ?_⟩
  rw [List.foldlM_cons, h]
  rfl

theorem trans (h : Leads step? s s') (h' : Leads step? s' s'') : Leads step? s s'' := by
  obtain ⟨es, hes⟩ := h
  obtain ⟨es', hes'⟩ := h'
  refine ⟨es ++ es', ?_⟩
  rw [List.foldlM_append, hes]
  exact hes'

end Leads
end FrameStream
