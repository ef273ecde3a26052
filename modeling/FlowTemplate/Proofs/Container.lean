/-
Guards and containers of a chain branch by branch. The guard of a branch is the conjunction of the
denials of all the conditions before it and of its own, and the containers of a chain are those of
its branches, each further one on a line of its own.
-/
import FlowTemplate.Container

namespace FlowTemplate

namespace Text

theorem joinWith_cons (separator first : Text) (rest : List Text) :
    joinWith separator (first :: rest) = first ++ rest.flatMap (separator ++ ·) := by
  induction rest generalizing first with
  | nil => simp [joinWith]
  | cons second rest ih =>
    have := ih second
    simp only [joinWith] at this ⊢
    rw [List.intercalate_cons_cons, this]
    simp

/-- A character that does not separate comes into joined texts only with one of them. -/
theorem not_mem_joinWith_iff {separator : Text} {parts : List Text} {c : Char} (hs : c ∉ separator) :
    c ∉ joinWith separator parts ↔ ∀ part ∈ parts, c ∉ part := by
  cases parts with
  | nil => simp [joinWith]
  | cons first rest => simp [joinWith_cons, hs]

/-- Joined texts up to one of them are those before it, each with a separator. -/
theorem joinWith_eq_of_getElem? (separator : Text) {part : Text} {parts : List Text} {i : Nat}
    (h : parts[i]? = some part) :
    ∃ back, joinWith separator parts = (parts.take i).flatMap (· ++ separator) ++ (part ++ back) := by
  induction parts generalizing i with
  | nil => cases h
  | cons first rest ih =>
    rw [joinWith_cons]
    cases i with
    | zero =>
      obtain rfl := Option.some.inj h
      exact ⟨rest.flatMap (separator ++ ·), rfl⟩
    | succ i =>
      obtain ⟨back, hback⟩ := ih h
      refine ⟨back, ?_⟩
      cases rest with
      | nil => cases h
      | cons second rest =>
        rw [joinWith_cons] at hback
        rw [List.flatMap_cons, List.append_assoc, hback, List.take_succ_cons, List.flatMap_cons,
          List.append_assoc, List.append_assoc]

end Text

/-! ## Guards -/

namespace Guard

/-- The conjunction of the denials of earlier conditions and of a branch's own one. -/
def conjunction (earlier : List Text) (own : Option Text) : Text :=
  Text.joinWith " && ".toList (earlier.map deny ++ own.toList)

@[simp] theorem conjunction_nil (own : Option Text) : conjunction [] own = own.getD [] := by
  cases own <;> simp [conjunction, Text.joinWith]

theorem conjunction_cons (first : Text) (earlier : List Text) (own : Option Text) :
    conjunction (first :: earlier) own =
      deny first ++ (earlier.map deny ++ own.toList).flatMap (" && ".toList ++ ·) := by
  simp only [conjunction, List.map_cons, List.cons_append, Text.joinWith_cons]

theorem conjunction_ne_nil (first : Text) (earlier : List Text) (own : Option Text) :
    conjunction (first :: earlier) own ≠ [] := by
  simp [conjunction_cons, deny]

theorem conjoin_own (earlier : List Text) (own : Text) :
    conjoin (conjunction earlier none) own = conjunction earlier (some own) := by
  cases earlier with
  | nil => simp [conjoin]
  | cons first earlier =>
    have : (conjunction (first :: earlier) none).isEmpty = false := by
      simpa using conjunction_ne_nil first earlier none
    rw [conjoin, this]
    simp [conjunction_cons]

theorem conjoin_deny (earlier : List Text) (condition : Text) :
    conjoin (conjunction earlier none) (deny condition) = conjunction (earlier ++ [condition]) none := by
  rw [conjoin_own]
  simp [conjunction]

/-- The guard of the next branch, and the guards of those behind it. -/
theorem ofChainFrom_cons (earlier : List Text) (branch : Branch) (rest : List Branch) :
    ofChainFrom (conjunction earlier none) (branch :: rest) =
      conjunction earlier branch.condition? ::
        ofChainFrom (conjunction (earlier ++ branch.condition?.toList) none) rest := by
  rw [ofChainFrom]
  cases branch.condition? with
  | none => simp
  | some condition =>
    simp only [conjoin_deny]
    simp only [conjoin_own, Option.toList_some]

/-- **The guard of each branch** denies every condition before it and asserts its own. -/
theorem ofChain_getElem? (chain : List Branch) (i : Nat) :
    (ofChain chain)[i]? = chain[i]?.map fun branch =>
      conjunction ((chain.take i).filterMap Branch.condition?) branch.condition? := by
  have key : ∀ (earlier : List Text) (chain : List Branch) (i : Nat),
      (ofChainFrom (conjunction earlier none) chain)[i]? = chain[i]?.map fun branch =>
        conjunction (earlier ++ (chain.take i).filterMap Branch.condition?) branch.condition? := by
    intro earlier chain i
    induction chain generalizing earlier i with
    | nil => simp [ofChainFrom]
    | cons branch rest ih =>
      rw [ofChainFrom_cons]
      cases i with
      | zero => simp
      | succ i =>
        rw [List.getElem?_cons_succ, ih, List.getElem?_cons_succ, List.take_succ_cons,
          List.filterMap_cons]
        cases branch.condition? <;> simp
  simpa [ofChain] using key [] chain i

/-- A guard is made of conditions and operators. -/
theorem not_mem_conjunction_iff {c : Char} (hdeny : c ∉ "!()".toList) (hand : c ∉ " && ".toList)
    (earlier : List Text) (own : Option Text) :
    c ∉ conjunction earlier own ↔
      (∀ condition ∈ earlier, c ∉ condition) ∧ ∀ condition ∈ own, c ∉ condition := by
  have hdenied : ∀ condition, c ∉ deny condition ↔ c ∉ condition := fun condition => by
    have hparts : c ≠ '!' ∧ c ≠ '(' ∧ c ≠ ')' := by simpa using hdeny
    simp [deny, hparts]
  rw [conjunction, Text.not_mem_joinWith_iff hand]
  simp only [List.mem_append, or_imp, forall_and, List.forall_mem_map, hdenied, Option.mem_toList,
    Option.mem_def]

end Guard

/-! ## Containers -/

namespace Container

/-- The track expression of a loop stands behind its clause. -/
theorem loopExpression_eq (loop : Loop) (h : loop.track? ≠ some []) :
    loopExpression loop = "let ".toList ++ loop.item ++ " of ".toList ++ loop.iterable ++
      (loop.track?.map ("; trackBy: ".toList ++ ·)).getD [] := by
  obtain ⟨item, iterable, content, track?⟩ := loop
  match track? with
  | none => exact (List.append_nil _).symm
  | some [] => exact absurd rfl h
  | some (c :: cs) => exact List.append_assoc _ _ _

theorem binding_eq (guard : Text) (alias? : Option Text) (h : alias? ≠ some []) :
    binding guard alias? = guard ++ (alias?.map ("; let ".toList ++ ·)).getD [] := by
  match alias? with
  | none => exact (List.append_nil _).symm
  | some [] => exact absurd rfl h
  | some (c :: cs) => exact List.append_assoc _ _ _

theorem ofChain_cons (tag : Text) (first : Branch) (rest : List Branch) :
    ofChain tag (first :: rest) =
      ofBranch tag first (first.condition?.getD []) ++
        (List.zipWith (ofBranch tag) rest
          (Guard.ofChainFrom (Guard.conjunction first.condition?.toList none) rest)).flatMap
            (['\n'] ++ ·) := by
  have := Guard.ofChainFrom_cons [] first rest
  simp only [Guard.conjunction_nil, Option.getD_none, List.nil_append] at this
  rw [ofChain, Guard.ofChain, this, List.zipWith_cons_cons, Text.joinWith_cons]

end Container

end FlowTemplate
