/-
Guards: the condition under which a branch of a chain is shown. A chain becomes independent
containers, so each guard denies every condition before it.
-/
import FlowTemplate.Branch

namespace FlowTemplate.Guard

/-- Both conditions, where the first may be missing. -/
def conjoin (left right : Text) : Text :=
  if left.isEmpty then right else left ++ " && ".toList ++ right

/-- The denial of a condition. -/
def deny (condition : Text) : Text := "!(".toList ++ condition ++ ")".toList

/-- The guards of the branches of a chain, after conditions whose denials are `denied`. -/
def ofChainFrom (denied : Text) : List Branch → List Text
  | [] => []
  | branch :: rest =>
    match branch.condition? with
    | none => denied :: ofChainFrom denied rest
    | some condition =>
      conjoin denied condition :: ofChainFrom (conjoin denied (deny condition)) rest

/-- The guard of every branch of a chain: all the conditions before it denied, and its own. -/
def ofChain (chain : List Branch) : List Text := ofChainFrom [] chain

end FlowTemplate.Guard
