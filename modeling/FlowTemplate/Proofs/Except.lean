/-
Results that may be faults: what is known of a composed one from its outcome, and how values and lists
of results come through it.
-/
import Mathlib.Logic.Function.Basic

namespace FlowTemplate

namespace Except

variable {ε δ α β γ : Type}

theorem bind_eq_ok_iff {first : Except ε α} {next : α → Except ε β} {b : β} :
    (first >>= next) = .ok b ↔ ∃ a, first = .ok a ∧ next a = .ok b := by
  cases first <;> simp [bind, Except.bind]

theorem bind_eq_error_iff {first : Except ε α} {next : α → Except ε β} {fault : ε} :
    (first >>= next) = .error fault ↔
      first = .error fault ∨ ∃ a, first = .ok a ∧ next a = .error fault := by
  cases first <;> simp [bind, Except.bind]

theorem mapError_eq_ok_iff {first : Except ε α} {f : ε → δ} {a : α} :
    first.mapError f = .ok a ↔ first = .ok a := by
  cases first with
  | error fault => exact iff_of_false nofun nofun
  | ok b => exact ⟨fun | rfl => rfl, fun | rfl => rfl⟩

theorem map_eq_ok_iff {result : Except ε α} {f : α → β} {b : β} :
    result.map f = .ok b ↔ ∃ a, result = .ok a ∧ f a = b := by
  cases result <;> simp [Except.map]

theorem map_eq_error_iff {result : Except ε α} {f : α → β} {fault : ε} :
    result.map f = .error fault ↔ result = .error fault := by
  cases result <;> simp [Except.map]

theorem map_map (f : α → β) (g : β → γ) (result : Except ε α) :
    (result.map f).map g = result.map fun a => g (f a) := by
  cases result <;> rfl

theorem map_ite {p : Prop} [Decidable p] (f : α → β) (a : α) (fault : ε) :
    (if p then Except.ok a else Except.error fault).map f = if p then .ok (f a) else .error fault := by
  split <;> rfl

theorem map_injective {f : α → β} (hf : Function.Injective f) {a b : Except ε α}
    (h : a.map f = b.map f) : a = b := by
  cases a with
  | error fault =>
    cases b with
    | error found => exact congrArg Except.error (Except.error.inj h)
    | ok y => cases h
  | ok x =>
    cases b with
    | error found => cases h
    | ok y => exact congrArg Except.ok (hf (Except.ok.inj h))

/-! ## Lists of results -/

variable {f : α → Except ε β} {list : List α}

theorem mapM_error {fault : ε} (h : list.mapM f = .error fault) : ∃ a ∈ list, f a = .error fault := by
  induction list with
  | nil => cases h
  | cons a list ih =>
    rw [List.mapM_cons] at h
    cases ha : f a with
    | error found =>
      rw [ha] at h
      cases h
      exact ⟨a, List.mem_cons_self, ha⟩
    | ok b =>
      rw [ha] at h
      cases hrest : list.mapM f with
      | error found =>
        simp only [bind, Except.bind, hrest] at h
        cases h
        obtain ⟨a', hmem, ha'⟩ := ih hrest
        exact ⟨a', List.mem_cons_of_mem _ hmem, ha'⟩
      | ok bs => simp [bind, Except.bind, hrest, pure, Except.pure] at h

/-- Where each step fails for want of one condition, so do all of them together. -/
theorem mapM_of_ite {p : α → Prop} [DecidablePred p] {g : α → β} {fault : ε}
    (h : ∀ a ∈ list, f a = if p a then .ok (g a) else .error fault) :
    list.mapM f = if ∀ a ∈ list, p a then .ok (list.map g) else .error fault := by
  induction list with
  | nil => rfl
  | cons a list ih =>
    rw [List.mapM_cons, h a List.mem_cons_self, ih fun b hb => h b (List.mem_cons_of_mem _ hb)]
    by_cases ha : p a
    · by_cases hlist : ∀ b ∈ list, p b
      · rw [if_pos ha, if_pos hlist, if_pos (List.forall_mem_cons.2 ⟨ha, hlist⟩)]
        rfl
      · rw [if_pos ha, if_neg hlist, if_neg fun hall => hlist (List.forall_mem_cons.1 hall).2]
        rfl
    · rw [if_neg ha, if_neg fun hall => ha (List.forall_mem_cons.1 hall).1]
      rfl

end Except

end FlowTemplate
