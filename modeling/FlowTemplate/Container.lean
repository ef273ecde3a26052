/-
Containers: the markup that stands for compiled blocks. Each branch and each loop is one element
whose directive attribute holds the guard or the loop expression.
-/
import FlowTemplate.Guard
import FlowTemplate.Loop

namespace FlowTemplate.Container

/-- The element that stands for a block where no other is asked for. -/
def defaultTag : Text := "ng-container".toList

/-- The attribute that shows its element if a condition holds. -/
def ifDirective : Text := "*ngIf".toList

/-- The attribute that repeats its element. -/
def forDirective : Text := "*ngFor".toList

/-- One container around a content. -/
def render (tag directive expression content : Text) : Text :=
  ['<'] ++ tag ++ [' '] ++ directive ++ ['=', '"'] ++ expression ++ ['"', '>'] ++ content
    ++ ['<', '/'] ++ tag ++ ['>']

/-- The guard of a branch, with its alias if it has one that is not empty. -/
def binding (guard : Text) (alias? : Option Text) : Text :=
  match alias? with
  | some (c :: cs) => guard ++ "; let ".toList ++ (c :: cs)
  | _ => guard

/-- The container of one branch. -/
def ofBranch (tag : Text) (branch : Branch) (guard : Text) : Text :=
  render tag ifDirective (binding guard branch.alias?) branch.content

/-- The containers of a chain, one for each branch, on lines of their own. -/
def ofChain (tag : Text) (chain : List Branch) : Text :=
  Text.joinWith ['\n'] (List.zipWith (ofBranch tag) chain (Guard.ofChain chain))

/-- The expression of a loop, with its track expression if it has one that is not empty. -/
def loopExpression (loop : Loop) : Text :=
  let base := "let ".toList ++ loop.item ++ " of ".toList ++ loop.iterable
  match loop.track? with
  | some (c :: cs) => base ++ "; trackBy: ".toList ++ (c :: cs)
  | _ => base

/-- The container of a loop. -/
def ofLoop (tag : Text) (loop : Loop) : Text :=
  render tag forDirective (loopExpression loop) loop.content

end FlowTemplate.Container
