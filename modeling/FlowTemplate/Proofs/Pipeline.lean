/-
A block whose body is interpolated, through all stages. Interpolation runs first, so that the block's
braces are the only ones left when its body is sought. That is so exactly if no interpolated expression
stands directly behind the opening brace and what interpolation writes is balanced; then the block
becomes its element around the compiled body, unless its condition ends like a property binding
(`compile_source_iff`).
-/
import FlowTemplate.Pipeline
import FlowTemplate.Proofs.Interpolation.Body
import FlowTemplate.Proofs.PropertyBinding
import FlowTemplate.Proofs.SelectMarker
import FlowTemplate.Proofs.Template.Compile

namespace FlowTemplate

open Delimiter

namespace Options

/-- What the stages make of a template once control flow is compiled. -/
def finish (compiled : Text) : Text := PropertyBinding.compile (SelectMarker.compile compiled)

theorem compile_default {template compiled : Text}
    (h : (Compiler.compile .default Container.defaultTag (Interpolation.compile template)).result =
      .ok compiled) : Options.default.compile template = .ok (finish compiled) := by
  have hstage : stage true Interpolation.compile template = Interpolation.compile template := rfl
  simp only [compile, Options.default, hstage, h]
  rfl

theorem head?_finish (text : Text) : (finish ('@' :: text)).head? = some '@' := by
  have hselect : SelectMarker.readElement ('@' :: text) = none :=
    SelectMarker.readElement_beginsWith.none fun h => absurd (Option.some.inj h) (by decide)
  rw [finish, SelectMarker.compile_eq_rewrite, Segment.rewrite_cons hselect,
    PropertyBinding.compile_eq_rewrite]
  generalize Segment.rewrite SelectMarker.readElement _ text = rest
  have hbinding : PropertyBinding.readBinding ('@' :: rest) = none :=
    PropertyBinding.readBinding_beginsWith.none fun h => absurd (Option.some.inj h) (by decide)
  rw [Segment.rewrite_cons hbinding]
  rfl

theorem getLast?_finish {text : Text} (h : text.getLast? = some '}') :
    (finish text).getLast? = some '}' := by
  rw [finish, PropertyBinding.compile_eq_rewrite, SelectMarker.compile_eq_rewrite]
  refine Segment.getLast?_rewrite PropertyBinding.readBinding_consumes (fun name w rest hread => ?_)
    (Segment.getLast?_rewrite SelectMarker.readElement_consumes (fun element w rest hread => ?_) h)
  · obtain ⟨-, htext⟩ := PropertyBinding.readBinding_eq_some_iff.1 hread
    obtain rfl := List.append_cancel_right htext
    have hshape : PropertyBinding.binding name = '[' :: name ++ [']', '='] ++ ['"'] := by
      simp [PropertyBinding.binding]
    rw [hshape, List.getLast?_concat]
    decide
  · obtain ⟨inside, htext⟩ := SelectMarker.readElement_eq_some hread
    obtain rfl : w = '<' :: inside ++ ['>'] := List.append_cancel_right (htext.trans (by simp))
    rw [List.getLast?_concat]
    decide

end Options

theorem Compiler.compile_no_at {text : Text} (h : '@' ∉ text) :
    (compile .default Container.defaultTag text).result = .ok text :=
  compile_of_passes (Pass.run_of_no_at h) (Pass.run_of_no_at h)

/-! ## The block -/

/-- The condition of a block, as it may stand in markup. -/
structure BlockCondition extends Template.Expression where
  no_angle : '<' ∉ text
  no_opener : '{' ∉ text
  no_closer : '}' ∉ text
  no_semicolon : ';' ∉ text
  no_quote : '"' ∉ text

/-- A block that shows an interpolated body. -/
structure InterpolatedBlock where
  condition : BlockCondition
  body : Interpolation.Body

namespace InterpolatedBlock

/-- The header of a block, from its at sign to the blank before its body. -/
def header (block : InterpolatedBlock) : Text := "@if (".toList ++ block.condition.text ++ ") ".toList

/-- A block as it is written. -/
def source (block : InterpolatedBlock) : Text :=
  "@if (".toList ++ block.condition.text ++ ") \x7b".toList ++ block.body.source ++ "\x7d".toList

theorem source_eq (block : InterpolatedBlock) :
    block.source = block.header ++ ('{' :: block.body.source ++ ['}']) := by
  unfold source header
  generalize "@if (".toList ++ block.condition.text = front
  have hopening : ") \x7b".toList = ") ".toList ++ ['{'] := rfl
  rw [hopening]
  simp only [List.append_assoc]
  rfl

/-! ## Interpolation -/

/-- Interpolation leaves the header and the closing brace of a block as they are. -/
theorem interpolate_source (block : InterpolatedBlock) :
    Interpolation.compile block.source =
      block.header ++ (Interpolation.compile ('{' :: block.body.source) ++ ['}']) := by
  have hangle : '<' ∉ block.header :=
    List.not_mem_append (List.not_mem_append (by decide) block.condition.no_angle) (by decide)
  have hopener : '{' ∉ block.header :=
    List.not_mem_append (List.not_mem_append (by decide) block.condition.no_opener) (by decide)
  have hpaired : Interpolation.Paired ('{' :: block.body.source) :=
    .cons (by decide) block.body.source_paired
  rw [source_eq, Interpolation.compile_append hangle hopener,
    Interpolation.compile_append_brace fun h => hpaired.last h]

/-- A body that begins with text comes to stand between the braces of the block. -/
theorem interpolate_of_text (block : InterpolatedBlock) (h : ¬ block.body.BeginsInterpolated) :
    Interpolation.compile block.source =
      block.header ++ '{' :: (Interpolation.compile block.body.source ++ ['}']) := by
  rw [interpolate_source, Interpolation.compile_brace_cons (block.body.head?_source h)]
  rfl

/-- A body that begins with an interpolated expression takes the opening brace of the block. -/
theorem interpolate_of_expression (block : InterpolatedBlock) (h : block.body.BeginsInterpolated) :
    ∃ more, '@' ∉ more ∧ Interpolation.compile block.source = block.header ++ '<' :: more := by
  obtain ⟨expression, rest, hbody⟩ := h
  have hsource : block.body.source = Interpolation.opening ++
      (expression.before.text ++ expression.text ++ expression.after.text) ++ Interpolation.closing ++
        Interpolation.Body.source rest := by
    rw [hbody, Interpolation.Body.source_cons]
    rfl
  have hhead : (Interpolation.compile ('{' :: block.body.source)).head? = some '<' := by
    rw [hsource]
    exact Interpolation.compile_brace_interpolated
      (expression.free (by decide) expression.no_opener)
      (expression.free (by decide) expression.no_closer) (Interpolation.Body.source_paired rest)
  have hno : '@' ∉ Interpolation.compile ('{' :: block.body.source) := by
    refine Interpolation.compile_no_at fun hm => ?_
    rcases List.mem_cons.1 hm with heq | hm
    · exact absurd heq (by decide)
    · exact block.body.source_no_at hm
  obtain ⟨back, hback⟩ := List.head?_eq_some_iff.1 hhead
  rw [interpolate_source, hback]
  rw [hback] at hno
  refine ⟨back ++ ['}'], List.not_mem_append (fun hm => hno (List.mem_cons_of_mem _ hm)) (by decide), ?_⟩
  rfl

/-! ## Control flow -/

/-- The header as that of a branch. -/
def branchHeader (block : InterpolatedBlock) : Template.BranchHeader where
  toLayout := .spaced
  condition := block.condition.toExpression
  alias? := none
  plain _ h := block.condition.no_semicolon h.semicolon_mem

theorem header_eq (block : InterpolatedBlock) (rest : Text) :
    block.header ++ rest =
      '@' :: "if".toList ++ (Template.Gap.space.text ++ '(' :: (block.condition.text ++ ')' :: ' ' :: rest)) := by
  have hshape : block.header =
      '@' :: "if".toList ++ (Template.Gap.space.text ++ '(' :: (block.condition.text ++ [')', ' '])) := rfl
  rw [hshape, List.append_assoc, List.append_assoc, List.cons_append (a := '('), List.append_assoc]
  rfl

theorem header_no_at (block : InterpolatedBlock) {rest : Text} (h : '@' ∉ rest) :
    '@' ∉ "if".toList ++ (Template.Gap.space.text ++ '(' :: (block.condition.text ++ ')' :: ' ' :: rest)) := by
  have hback : '@' ∉ ')' :: ' ' :: rest :=
    List.not_mem_cons_of_ne_of_not_mem (by decide) (List.not_mem_cons_of_ne_of_not_mem (by decide) h)
  have hopened : '@' ∉ ['('] := by decide
  exact List.not_mem_append (by decide) (List.not_mem_append (by decide)
    (List.not_mem_append hopened (List.not_mem_append block.condition.no_at hback)))

/-- A block whose body is balanced becomes its element, and what follows stays. -/
theorem compile_closed (block : InterpolatedBlock) {inside rest : Text} (h : brace.Balanced inside)
    (hinside : '@' ∉ inside) (hrest : '@' ∉ rest) :
    (Compiler.compile .default Container.defaultTag
      (block.header ++ '{' :: (inside ++ '}' :: rest))).result =
      .ok (Template.element "*ngIf".toList block.condition.text (Text.trimStart inside) ++ rest) := by
  let template : Template := .chain block.branchHeader (.literal ⟨inside, hinside, h⟩ .nil) .done .nil
  have hwrap : block.branchHeader.source = ' ' :: '(' :: (block.condition.text ++ [')', ' ']) := by
    simp [branchHeader, Template.BranchHeader.source, Template.Layout.wrap, Template.Layout.spaced,
      Template.Gap.space]
  have hshape : block.header ++ '{' :: (inside ++ '}' :: rest) = template.source ++ rest := by
    rw [header_eq]
    simp only [template, Template.source, Template.write, Branches.write, hwrap, Template.inBraces,
      Template.Gap.space, List.append_nil, List.append_assoc, List.cons_append, List.nil_append]
    rfl
  have himage : template.image =
      Template.element "*ngIf".toList block.condition.text (Text.trimStart inside) := by
    simp only [template, Template.image, Template.markup, Branches.markup, List.append_nil,
      Template.BranchHeader.element, Template.BranchHeader.directive, Guard.conjunction_nil,
      branchHeader, Option.getD_some]
  have hdepth : template.loopDepth ≤ 329 ∧ template.chainDepth ≤ 246 := by
    simp [template, Template.loopDepth, Branches.loopDepth, Template.chainDepth, Branches.chainDepth]
  have hends : Chain.Ends rest := by
    have := Chain.Ends.append hrest .nil
    rwa [List.append_nil] at this
  have hloops := template.becomes_afterLoops hdepth.1 rest trivial
  have hchains := template.becomes_image hdepth.2 rest hends
  rw [Pass.run_of_no_at hrest] at hloops hchains
  rw [hshape, ← himage]
  exact Compiler.compile_of_passes hloops hchains

/-- A block in which no body can be read stays. -/
theorem compile_unread (block : InterpolatedBlock) {back : Text} {fault : Fault} (hback : '@' ∉ back)
    (h : expectGroup (' ' :: back) 0 '{' = .error fault) :
    (Compiler.compile .default Container.defaultTag (block.header ++ back)).result =
      .ok (block.header ++ back) := by
  have hno := block.header_no_at hback
  obtain ⟨found, hlocate⟩ :=
    Template.locate_unread "if".toList Template.Gap.space.toBlanks block.condition.parens h
  rw [header_eq]
  have hsilent : Pass.Silent Construct.loops.keyword ('@' :: "if".toList ++
      (Template.Gap.space.text ++ '(' :: (block.condition.text ++ ')' :: ' ' :: back))) :=
    Pass.Silent.of_other (by decide) hno
  have hloops := (Pass.Becomes.of_silent hsilent : Pass.Becomes .loops Container.defaultTag 329
    (fun _ => True) _ _).result trivial
  exact Compiler.compile_of_passes hloops (Pass.run_of_unread hno hlocate)

theorem expectGroup_open {body : Text} (h : brace.closingOffset? 1 body = none) :
    expectGroup (' ' :: '{' :: body) 0 '{' = .error (.unbalanced 1) := by
  have hskip : skipBlanks (' ' :: '{' :: body) 0 = 1 := rfl
  have hfind : findClosing (' ' :: '{' :: body) 1 = .error (.unbalanced 1) := by
    have hkind : ofOpener? '{' = some brace := rfl
    simp only [findClosing, List.drop_succ_cons, List.drop_zero, hkind, h]
  simp only [expectGroup, hskip, hfind]
  rfl

/-! ## All stages -/

/-- A block that interpolation does not disturb. -/
structure Undisturbed (block : InterpolatedBlock) : Prop where
  begins : ¬ block.body.BeginsInterpolated
  balanced : brace.Balanced (Interpolation.compile block.body.source)
  ends : ¬ PropertyBinding.EndsInBinding block.condition.text

/-- A result that keeps its at sign is no element. -/
theorem compile_source_ne (block : InterpolatedBlock) {back : Text} {fault : Fault}
    (hsource : Interpolation.compile block.source = block.header ++ back) (hback : '@' ∉ back)
    (hfault : expectGroup (' ' :: back) 0 '{' = .error fault) (content : Text) :
    Options.default.compile block.source ≠
      .ok (Template.element "*ngIf".toList block.condition.text content) := by
  intro heq
  have hcompiled := block.compile_unread hback hfault
  rw [← hsource] at hcompiled
  rw [Options.compile_default hcompiled, hsource, header_eq] at heq
  have hhead := congrArg List.head? (Except.ok.inj heq)
  rw [List.cons_append, Options.head?_finish] at hhead
  exact absurd (Option.some.inj hhead) (by decide)

/-- A balanced body is compiled by itself, in the element of the block. -/
theorem compile_source_balanced (block : InterpolatedBlock) (hbegins : ¬ block.body.BeginsInterpolated)
    (hbalanced : brace.Balanced (Interpolation.compile block.body.source)) :
    Options.default.compile block.source =
      .ok ("<ng-container ".toList ++ "*ngIf".toList ++ "=\"".toList ++
        (PropertyBinding.compile (block.condition.text ++ ['"']) ++
          '>' :: (Options.finish (Text.trimStart (Interpolation.compile block.body.source)) ++
            Template.closing))) := by
  have hno := Interpolation.compile_no_at block.body.source_no_at
  have hcompiled := block.compile_closed hbalanced hno List.not_mem_nil
  rw [List.append_nil, ← block.interpolate_of_text hbegins] at hcompiled
  rw [Options.compile_default hcompiled, Options.finish,
    SelectMarker.compile_element (by decide) block.condition.no_angle,
    PropertyBinding.compile_element (by decide)]
  rfl

/-- A body that is not balanced does not end up in the element of the block. -/
theorem compile_source_unbalanced (block : InterpolatedBlock)
    (hbegins : ¬ block.body.BeginsInterpolated)
    (hbalanced : ¬ brace.Balanced (Interpolation.compile block.body.source)) (content : Text) :
    Options.default.compile block.source ≠
      .ok (Template.element "*ngIf".toList block.condition.text content) := by
  have hsource := block.interpolate_of_text hbegins
  have hno := Interpolation.compile_no_at block.body.source_no_at
  generalize Interpolation.compile block.body.source = output at *
  have hclosed : '@' ∉ output ++ ['}'] := List.not_mem_append hno (by decide)
  cases hoffset : brace.closingOffset? 1 (output ++ ['}']) with
  | none =>
    have hback : '@' ∉ '{' :: (output ++ ['}']) := List.not_mem_cons_of_ne_of_not_mem (by decide) hclosed
    exact block.compile_source_ne hsource hback (expectGroup_open hoffset) content
  | some offset =>
    -- The block closes too early, and its last brace is left behind the element.
    obtain ⟨inside, rest, heq, -, hinside⟩ := closingOffset?_one_iff.1 hoffset
    rcases List.eq_nil_or_concat rest with rfl | ⟨front, last, rfl⟩
    · exact absurd (List.append_inj_left' heq rfl ▸ hinside) hbalanced
    · rw [List.concat_eq_append] at heq
      have hlast : '}' = last := by
        have := congrArg List.getLast? heq
        rw [List.getLast?_concat, ← List.cons_append, ← List.append_assoc, List.getLast?_concat] at this
        exact Option.some.inj this
      subst hlast
      rw [heq] at hsource hclosed
      have hparts : '@' ∉ inside ∧ '@' ∉ front ++ ['}'] := by
        rw [List.mem_append, not_or, List.mem_cons, not_or] at hclosed
        exact ⟨hclosed.1, hclosed.2.2⟩
      have hcompiled := block.compile_closed hinside hparts.1 hparts.2
      have hcloser : brace.closer = '}' := rfl
      rw [hcloser] at hsource
      rw [← hsource] at hcompiled
      rw [Options.compile_default hcompiled]
      intro hsame
      have hend := congrArg List.getLast? (Except.ok.inj hsame)
      rw [Options.getLast?_finish (by rw [← List.append_assoc, List.getLast?_concat])] at hend
      have hangle : (Template.element "*ngIf".toList block.condition.text content).getLast? = some '>' := by
        have hclosing : Template.closing = "</ng-container".toList ++ ['>'] := rfl
        rw [Template.element, hclosing, ← List.append_assoc, ← List.append_assoc, List.getLast?_concat]
      rw [hangle] at hend
      exact absurd (Option.some.inj hend) (by decide)

/-- **Interpolation leaves a block alone exactly if the block is `Undisturbed`.** Its body compiles by
itself in any case, and without quotes in its expressions it stays balanced. -/
theorem compile_source_iff (block : InterpolatedBlock) :
    ∃ content, Options.default.compile (Text.trimStart block.body.source) = .ok content ∧
      (Options.default.compile block.source =
          .ok (Template.element "*ngIf".toList block.condition.text content) ↔
        block.Undisturbed) ∧
      (block.body.QuoteFree → brace.Balanced (Interpolation.compile block.body.source)) := by
  have hno : '@' ∉ Interpolation.compile block.body.source :=
    Interpolation.compile_no_at block.body.source_no_at
  have htrimmed : '@' ∉ Text.trimStart (Interpolation.compile block.body.source) := fun hm =>
    hno ((Text.trimStart_suffix _).subset hm)
  refine ⟨Options.finish (Text.trimStart (Interpolation.compile block.body.source)), ?_, ?_,
    Interpolation.Body.compile_balanced⟩
  · refine Options.compile_default ?_
    rw [Interpolation.compile_trimStart]
    exact Compiler.compile_no_at htrimmed
  by_cases hbegins : block.body.BeginsInterpolated
  · obtain ⟨more, hmore, hsource⟩ := block.interpolate_of_expression hbegins
    have hback : '@' ∉ '<' :: more := List.not_mem_cons_of_ne_of_not_mem (by decide) hmore
    have hfault : expectGroup (' ' :: '<' :: more) 0 '{' = .error (.malformedHeader 1 []) := rfl
    exact iff_of_false (block.compile_source_ne hsource hback hfault _) fun h => h.begins hbegins
  by_cases hbalanced : brace.Balanced (Interpolation.compile block.body.source)
  · rw [block.compile_source_balanced hbegins hbalanced, PropertyBinding.element_eq]
    have hvalue := PropertyBinding.compile_value_iff block.condition.no_quote
    constructor
    · intro hsame
      have hkept := List.append_cancel_right (List.append_cancel_left (Except.ok.inj hsame))
      exact ⟨hbegins, hbalanced, hvalue.1 hkept⟩
    · intro h
      rw [hvalue.2 h.ends]
  · exact iff_of_false (block.compile_source_unbalanced hbegins hbalanced _) fun h =>
      hbalanced h.balanced

/-! ## Blocks -/

/-- One letter in double braces, with a blank on either side. -/
def letterPiece : Interpolation.Piece :=
  .interpolated
    { text := ['x'], ne_nil := by decide, no_at := by decide, no_opener := by decide,
      no_closer := by decide, trimmed := by decide, before := Template.Gap.space.toBlanks,
      after := Template.Gap.space.toBlanks }

/-- Text of a body. -/
def wordPiece : Interpolation.Piece :=
  .plain
    { text := "<b>hi</b> ".toList, ne_nil := by decide, no_at := by decide, no_opener := by decide,
      no_closer := by decide }

/-- A block whose condition is one letter. -/
def ofBody (body : Interpolation.Body) : InterpolatedBlock where
  condition :=
    { (Template.BranchHeader.letter none).condition with
      no_angle := by decide
      no_opener := by decide
      no_closer := by decide
      no_semicolon := by decide
      no_quote := by decide }
  body := body

theorem compile_undisturbed_sample :
    (ofBody [wordPiece, letterPiece]).Undisturbed ∧
      (ofBody [wordPiece, letterPiece]).source = "@if (a) \x7b<b>hi</b> \x7b\x7b x \x7d\x7d\x7d".toList ∧
      Options.default.compile (ofBody [wordPiece, letterPiece]).source =
        .ok ("<ng-container *ngIf=\"a\"><b>hi</b> ".toList ++
          "<span [inner-text]=\"x\"></span></ng-container>".toList) := by
  obtain ⟨content, hcontent, hiff, hbalanced⟩ := compile_source_iff (ofBody [wordPiece, letterPiece])
  have hundisturbed : (ofBody [wordPiece, letterPiece]).Undisturbed :=
    { begins := by
        rintro ⟨expression, rest, hbody⟩
        cases hbody
      balanced := hbalanced fun expression hm => by
        rcases List.mem_cons.1 hm with heq | hm
        · cases heq
        · cases List.mem_singleton.1 hm
          decide
      ends := by
        rintro ⟨front, name, -, heq, -⟩
        have hlength := congrArg List.length heq
        simp only [ofBody, Template.BranchHeader.letter, List.length_append, List.length_cons,
          List.length_nil] at hlength
        omega }
  refine ⟨hundisturbed, by decide +kernel, ?_⟩
  rw [hiff.2 hundisturbed]
  have hvalue : Options.default.compile (Text.trimStart (ofBody [wordPiece, letterPiece]).body.source) =
      .ok "<b>hi</b> <span [inner-text]=\"x\"></span>".toList := by decide +kernel
  obtain rfl := Except.ok.inj (hcontent.symm.trans hvalue)
  rfl

/-- An expression behind the opening brace takes that brace with it, and the block is left as text. -/
theorem not_compile_source_of_expression :
    ¬ ∀ block : InterpolatedBlock, ∃ content,
      Options.default.compile (Text.trimStart block.body.source) = .ok content ∧
        Options.default.compile block.source =
          .ok (Template.element "*ngIf".toList block.condition.text content) := by
  intro h
  obtain ⟨content, -, hcompiled⟩ := h (ofBody [letterPiece])
  have hleft : Options.default.compile (ofBody [letterPiece]).source =
      .ok "@if (a) <span [inner-text]=\"\x7b x\"></span>\x7d".toList := by decide +kernel
  rw [hleft] at hcompiled
  have hhead := congrArg List.head? (Except.ok.inj hcompiled)
  exact absurd (Option.some.inj hhead : '@' = '<') (by decide)

end InterpolatedBlock

end FlowTemplate
