/-
A template in a select, through all stages. Without double braces interpolation has nothing to do, the
passes make the image of the template, and the select is found as it is written. So each loop comes to
stand between its own markers exactly if all loops are flat (`Template.compile_select_iff`).
-/
import FlowTemplate.Proofs.Pipeline
import FlowTemplate.Proofs.Select.Parting

namespace FlowTemplate

open Template SelectMarker Markup

/-! ## Nothing to interpolate -/

namespace Text

theorem Lacks.not_infix {literal text : Text} (h : Lacks (after? literal) text []) (hne : literal ≠ []) :
    ¬ literal <:+: text := by
  rintro ⟨front, back, rfl⟩
  obtain ⟨c, cs, rfl⟩ := List.exists_cons_of_ne_nil hne
  rw [List.append_assoc] at h
  have hfirst : after? (c :: cs) (c :: cs ++ back ++ []) = none := (append_iff.1 h).2.1
  rw [List.append_nil, after?_append] at hfirst
  cases hfirst

end Text

namespace Interpolation

theorem gathered_of_not_infix {attributes : Text} (h : ¬ opening <:+: attributes) :
    gathered attributes = [] := by
  rw [List.eq_nil_iff_forall_not_mem]
  intro binding hmem
  obtain ⟨value, front, w, rest, rfl, hread, -⟩ := of_mem_gathered hmem
  obtain ⟨before, after, htext, -, -, -, -, -, hbraces⟩ := readAttribute_eq_some hread
  refine h ((opening_infix_of_hasBraces hbraces).trans
    ⟨front ++ (binding.name ++ (before ++ '=' :: (after ++ ['"']))), '"' :: rest, ?_⟩)
  rw [htext]
  simp

theorem compile_of_not_infix {text : Text} (h : ¬ opening <:+: text) : compile text = text := by
  have hattributes : compileAttributes text = text := by
    rw [compileAttributes_eq_rewrite, Segment.rewrite]
    conv_rhs => rw [← Segment.flatMap_text_ofText readTag text]
    refine List.flatMap_congr fun segment hsegment => ?_
    cases segment with
    | gap gap => rfl
    | hit tag w =>
      obtain ⟨front, rest, rfl, hread⟩ := Segment.of_hit_mem readTag_consumes hsegment
      obtain ⟨hw, -⟩ := readTag_shape hread
      have hfree : ¬ opening <:+: tag.2 := fun hwithin => h <| hwithin.trans <|
        ⟨front ++ '<' :: tag.1, '>' :: rest, by rw [hw]; simp⟩
      simp only [Segment.replacement, compileTag_eq, gathered_of_not_infix hfree, List.isEmpty_nil,
        if_true]
      rfl
  rw [compile, hattributes, compileContent_eq_rewrite]
  refine Segment.rewrite_of_none fun t ht => ?_
  rw [Option.eq_none_iff_forall_not_mem]
  rintro ⟨expression, rest⟩ hread
  obtain ⟨inside, -, -, -, htext⟩ := readExpression_eq_some_iff.1 hread
  refine h (List.IsInfix.trans ⟨[], inside ++ closing ++ rest, ?_⟩ ht.isInfix)
  rw [htext]
  simp

end Interpolation

/-! ## The select -/

namespace Template

/-- A content in a select. -/
def select (content : Text) : Text := "<select>".toList ++ (content ++ "</select>".toList)

/-- The passes go into a select. -/
theorem compile_select_source (template : Template)
    (hloops : template.loopDepth < NestingLimits.default.loops)
    (hchains : template.chainDepth < NestingLimits.default.chains) :
    (Compiler.compile .default Container.defaultTag (select template.source)).result =
      .ok (select template.image) := by
  have hopening : '@' ∉ "<select>".toList := by decide
  have hclosing : '@' ∉ "</select>".toList := by decide
  have hfirst := template.becomes_afterLoops (Nat.le_of_lt_succ hloops)
  have hsecond := template.becomes_image (Nat.le_of_lt_succ hchains)
  have hloopPass := (Pass.Becomes.of_silent (.of_not_mem hopening)).append
    (hfirst.append (.of_silent (.of_not_mem hclosing)) fun _ _ => trivial) fun _ _ => trivial
  have hchainPass := (Pass.Becomes.of_silent (.of_not_mem hopening)).append
    (hsecond.append (.of_silent (.of_not_mem hclosing)) fun _ => Chain.Ends.append hclosing)
    fun _ hrest => by
      rw [List.append_assoc]
      exact template.ends_afterLoops (Chain.Ends.append hclosing hrest)
  exact Compiler.compile_of_passes (hloopPass.result trivial) (hchainPass.result .nil)

end Template

/-- A select goes up to the first tag that ends one, and the loops before it are marked. -/
theorem SelectMarker.compile_select_of {text content left : Text}
    (h : readUpTo? (afterEnd? "select".toList) (text ++ "</select>".toList) = some (content, left)) :
    compile (select text) =
      "<select>".toList ++ (markLoops content ++ ("</select>".toList ++ compile left)) := by
  have hname : elementName? ("select>".toList ++ (text ++ "</select>".toList)) =
      some ("select".toList, '>' :: (text ++ "</select>".toList)) := rfl
  have hattributes : readUntil? '>' ('>' :: (text ++ "</select>".toList)) =
      some ([], text ++ "</select>".toList) :=
    readUntil?_eq_some_iff.2 ⟨rfl, List.not_mem_nil⟩
  have hread : readElement (select text) = some (⟨"select".toList, [], content⟩, left) := by
    have hall := readElement_angle ("select>".toList ++ (text ++ "</select>".toList))
    simp only [hname, hattributes, h, Option.bind_some, Option.map_some] at hall
    exact hall
  rw [compile_of_read hread]
  have hstart : ['<'] ++ "select".toList ++ [] ++ ['>'] = "<select>".toList := by decide
  have hend : ['<', '/'] ++ "select".toList ++ ['>'] = "</select>".toList := by decide
  unfold markElement
  rw [hstart, ← hend]
  simp only [List.append_assoc]
  rfl

/-- A select in which nothing ends one has its whole content marked. -/
theorem SelectMarker.compile_select_of_lacks {text : Text}
    (h : Text.Lacks (afterEnd? "select".toList) text "</select>".toList) :
    compile (select text) = select (markLoops text) := by
  have hend : readUpTo? (afterEnd? "select".toList) "</select>".toList = some ([], []) := by decide
  have hnil : compile [] = [] := rfl
  have hcontent := h.readUpTo?
  simp only [hend, Option.map_some, List.append_nil] at hcontent
  have hcompile := compile_select_of hcontent
  simp only [hnil, List.append_nil] at hcompile
  exact hcompile

theorem SelectMarker.compile_select {template : Template} (h : template.InSelect) :
    compile (select template.image) = select (markLoops template.image) :=
  compile_select_of_lacks (template.lacks_end h (.cons "/select>".toList))

namespace Template

theorem lacks_binding_select (template : Template) (h : template.InSelect) :
    Text.Lacks PropertyBinding.readBinding (select template.marked) [] :=
  (PropertyBinding.lacks_binding_of_free (by decide) _).append <|
    (template.lacks_binding h (.cons _)).append (PropertyBinding.lacks_binding_of_free (by decide) [])

/-- The later stages make what is meant of the image in a select exactly if all loops are flat. -/
theorem finish_select_iff (template : Template) (h : template.InSelect) :
    Options.finish (select template.image) = select template.marked ↔ template.FlatLoops := by
  have hfree := template.lacks_binding_select h
  rw [Options.finish, SelectMarker.compile_select h]
  constructor
  · intro heq
    by_contra hnot
    have hparts := template.parts_of_not_flat h hnot .nil "</select>".toList
    rw [List.append_nil] at hparts
    exact ((hparts.append "</select>".toList).prepend "<select>".toList).compile_ne hfree heq
  · intro hflat
    have hmarked := template.markLoops_image h hflat .nil
    have hnil : markLoops [] = [] := rfl
    rw [List.append_nil, hnil, List.append_nil] at hmarked
    have hkept : Segment.rewrite PropertyBinding.readBinding (fun name _ => PropertyBinding.spell name)
        (select template.marked ++ []) = _ := hfree.rewrite
    rw [List.append_nil, Segment.rewrite_nil, List.append_nil] at hkept
    rw [hmarked, PropertyBinding.compile_eq_rewrite, hkept]

/-- **Loops in a select come to stand between their markers exactly if they are flat.** Take any loops
and chains, nested less deep than the passes can go, in a select. Each loop becomes its trimmed body
between its own markers, and each branch stays an element, if and only if no loop holds another loop or
a chain. -/
theorem compile_select_iff (template : Template) (h : template.InSelect)
    (hbraces : Text.Lacks (Text.after? Interpolation.opening) template.source [])
    (hloops : template.loopDepth < NestingLimits.default.loops)
    (hchains : template.chainDepth < NestingLimits.default.chains) :
    Options.default.compile (select template.source) = .ok (select template.marked) ↔
      template.FlatLoops := by
  have hstops : Text.StopsAt (Text.after? Interpolation.opening) '<' := by
    intro d text rest hread
    have hall := Text.after?_append_cons (by decide : '<' ∉ Interpolation.opening) (d :: text) rest
    rw [hread] at hall
    exact hall
  have hopens : Text.OpensWith (Text.after? Interpolation.opening) '{' := by
    intro text hhead
    rw [Option.eq_none_iff_forall_not_mem]
    intro rest hafter
    exact hhead (congrArg List.head? (Text.after?_eq_some_iff.1 hafter))
  have hlacks : Text.Lacks (Text.after? Interpolation.opening) (select template.source) [] :=
    (Text.Lacks.of_not_mem hopens (by decide) _).append <|
      (hbraces.before hstops _).append (.of_not_mem hopens (by decide) [])
  have hinterpolated := Interpolation.compile_of_not_infix (hlacks.not_infix (by decide))
  have hcompiled := template.compile_select_source hloops hchains
  rw [← hinterpolated] at hcompiled
  rw [Options.compile_default hcompiled, ← template.finish_select_iff h]
  exact ⟨fun heq => Except.ok.inj heq, congrArg _⟩

/-- The header `item of iterable`. -/
def LoopHeader.plain (item : Name) (iterable : Expression) (h : ';' ∉ iterable.text) : LoopHeader :=
  { Layout.spaced with
    item := item
    beforeOf := .space
    afterOf := .space
    iterable := iterable
    no_semicolon := h
    track? := none }

/-- The header `g of gs`. -/
def groups : LoopHeader :=
  .plain ⟨['g'], by decide⟩
    ⟨"gs".toList, by decide, by decide, by decide, by decide, by decide⟩ (by decide)

/-- The header `o of g.os`. -/
def members : LoopHeader :=
  .plain ⟨['o'], by decide⟩
    ⟨"g.os".toList, by decide, by decide, by decide, by decide, by decide⟩ (by decide)

/-- An option, with blanks around it. -/
def option : Template := .literal ⟨" <option></option> ".toList, by decide, by decide⟩ .nil

theorem groups_inSelect : groups.InSelect := ⟨rfl, by decide, by decide, by decide +kernel⟩

theorem members_inSelect : members.InSelect := ⟨rfl, by decide, by decide, by decide +kernel⟩

theorem option_inSelect : option.InSelect := ⟨by decide, by decide +kernel, trivial⟩

/-- A loop in a branch, and another one behind the chain. -/
def flat : Template :=
  .chain (.letter none) (.loop groups option .nil)
    (.otherwise Gap.space.toBlanks Gap.space.toBlanks option) (.loop members option .nil)

theorem compile_select_flat :
    (flat.InSelect ∧ Text.Lacks (Text.after? Interpolation.opening) flat.source [] ∧
      flat.loopDepth < NestingLimits.default.loops ∧ flat.chainDepth < NestingLimits.default.chains) ∧
      flat.FlatLoops ∧
      Options.default.compile (select flat.source) =
        .ok ("<select><ng-container *ngIf=\"a\"><!--F:g:gs--><option></option><!--/F--></ng-container>\n".toList ++
          "<ng-container *ngIf=\"!(a)\"><option></option> </ng-container>".toList ++
          "<!--F:o:g.os--><option></option><!--/F--></select>".toList) := by
  have hselect : flat.InSelect :=
    ⟨⟨by decide +kernel, by decide +kernel⟩, ⟨groups_inSelect, option_inSelect, trivial⟩, option_inSelect,
      members_inSelect, option_inSelect, trivial⟩
  have hbraces : Text.Lacks (Text.after? Interpolation.opening) flat.source [] := by decide +kernel
  have hdepth : flat.loopDepth < NestingLimits.default.loops ∧
      flat.chainDepth < NestingLimits.default.chains := by decide
  have hflat : flat.FlatLoops := ⟨⟨trivial, trivial⟩, trivial, trivial, trivial⟩
  refine ⟨⟨hselect, hbraces, hdepth⟩, hflat, ?_⟩
  rw [(compile_select_iff flat hselect hbraces hdepth.1 hdepth.2).2 hflat]
  decide +kernel

/-- A loop in a loop, of which the outer one ends with the tag that closes the inner one. -/
theorem not_compile_select_of_nested :
    ¬ ∀ template : Template, template.InSelect →
      Text.Lacks (Text.after? Interpolation.opening) template.source [] →
      template.loopDepth < NestingLimits.default.loops →
      template.chainDepth < NestingLimits.default.chains →
      Options.default.compile (select template.source) = .ok (select template.marked) := by
  intro h
  let nested : Template := .loop groups (.loop members option .nil) .nil
  have hcompiled := h nested ⟨groups_inSelect, ⟨members_inSelect, option_inSelect, trivial⟩, trivial⟩
    (by decide +kernel) (by decide) (by decide)
  have hleft : Options.default.compile (select nested.source) =
      .ok ("<select><!--F:g:gs--><ng-container *ngFor=\"let o of g.os\"> <option></option><!--/F-->".toList ++
        "</ng-container></select>".toList) := by decide +kernel
  rw [hleft] at hcompiled
  revert hcompiled
  decide +kernel

end Template

end FlowTemplate
