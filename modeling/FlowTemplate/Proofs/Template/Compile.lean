/-
Compiling a written template. The pass over loops gives the text `afterLoops`, in which the chains
still stand as they were written, and the pass over chains makes the image of it. Both go through a
template from the front: what a template makes of its own text does not depend on what follows, as
long as that is no further branch (`becomes_afterLoops`, `becomes_image`).
-/
import FlowTemplate.Proofs.Pass
import FlowTemplate.Proofs.Template.Branches

namespace FlowTemplate

open Delimiter Template

/-! ## Balanced braces -/

namespace Template

theorem LoopHeader.directive_balanced (header : LoopHeader) : brace.Balanced header.directive := by
  have hlet : brace.Balanced "let ".toList := by decide
  have hof : brace.Balanced " of ".toList := by decide
  unfold directive
  refine (((hlet.append (header.item.balanced _)).append hof).append header.iterable.braces).append ?_
  cases header.track? with
  | none => exact .nil
  | some clause =>
    have htrack : brace.Balanced "; trackBy: ".toList := by decide
    exact htrack.append clause.key.braces

theorem element_balanced {directive expression content : Text} (hd : brace.Balanced directive)
    (he : brace.Balanced expression) (hc : brace.Balanced content) :
    brace.Balanced (element directive expression content) := by
  have hfront : brace.Balanced "<ng-container ".toList := by decide
  have hequals : brace.Balanced "=\"".toList := by decide
  have hend : brace.Balanced "\">".toList := by decide
  have hclosing : brace.Balanced closing := by decide
  exact ((((hfront.append hd).append hequals).append he).append hend).append (hc.append hclosing)

theorem BranchHeader.source_balanced (header : BranchHeader) : brace.Balanced header.source :=
  header.toLayout.wrap_balanced (header.core_balanced brace)

theorem LoopHeader.source_balanced (header : LoopHeader) : brace.Balanced header.source :=
  header.toLayout.wrap_balanced (header.core_balanced brace)

theorem LoopHeader.block_balanced (header : LoopHeader) {body : Text} (h : brace.Balanced body) :
    brace.Balanced (header.block body) := by
  have hfor : brace.Balanced "@for".toList := by decide
  exact hfor.append (header.source_balanced.append (inBraces_balanced h))

end Template

mutual

/-- What is written has balanced braces if the loops are written so. -/
theorem Template.write_balanced {loop : LoopHeader → Text → Text}
    (hloop : ∀ header body, brace.Balanced body → brace.Balanced (loop header body))
    (template : Template) : brace.Balanced (template.write loop) := by
  match template with
  | .nil => exact .nil
  | .literal text rest => exact text.braces.append (rest.write_balanced hloop)
  | .loop header body rest =>
    exact (hloop header _ (body.write_balanced hloop)).append (rest.write_balanced hloop)
  | .chain header content more rest =>
    have hif : brace.Balanced "@if".toList := by decide
    exact hif.append <| header.source_balanced.append <|
      (inBraces_balanced (content.write_balanced hloop)).append <|
      (more.write_balanced hloop).append (rest.write_balanced hloop)

theorem Branches.write_balanced {loop : LoopHeader → Text → Text}
    (hloop : ∀ header body, brace.Balanced body → brace.Balanced (loop header body))
    (more : Branches) : brace.Balanced (more.write loop) := by
  have helse : brace.Balanced "@else".toList := by decide
  match more with
  | .done => exact .nil
  | .elseIf beforeElse beforeIf header content more =>
    have hif : brace.Balanced "if".toList := by decide
    exact (beforeElse.blank.balanced _).append <| helse.append <|
      (beforeIf.blank.balanced _).append <| hif.append <| header.source_balanced.append <|
      (inBraces_balanced (content.write_balanced hloop)).append (more.write_balanced hloop)
  | .otherwise beforeElse beforeBody content =>
    exact (beforeElse.blank.balanced _).append <| helse.append <|
      (beforeBody.blank.balanced _).append (inBraces_balanced (content.write_balanced hloop))

end

theorem Template.source_balanced (template : Template) : brace.Balanced template.source :=
  template.write_balanced fun header _ => header.block_balanced

/-! ## The pass over loops -/

theorem Branches.write_eq_spell (more : Branches) (loop : LoopHeader → Text → Text) :
    more.write loop = more.spell (Template.write loop) := by
  match more with
  | .done => rfl
  | .elseIf _ _ _ _ more => simp only [Branches.write, spell, write_eq_spell more]
  | .otherwise _ _ _ => rfl

/-- A template of which the loops are compiled. -/
def Template.afterLoops (template : Template) : Text := template.write LoopHeader.element

namespace Template

theorem Layout.wrap_no_at (layout : Layout) {core : Text} (h : '@' ∉ core) :
    '@' ∉ layout.wrap core := by
  simp only [wrap, List.mem_append, List.mem_cons, not_or]
  exact ⟨layout.beforeHeader.blank.not_mem (by decide), by decide,
    ⟨layout.atStart.blank.not_mem (by decide), h, layout.atEnd.blank.not_mem (by decide)⟩,
    by decide, layout.beforeBody.blank.not_mem (by decide)⟩

theorem BranchHeader.source_no_at (header : BranchHeader) : '@' ∉ header.source := by
  refine header.toLayout.wrap_no_at ?_
  rw [List.mem_append, not_or]
  refine ⟨header.condition.no_at, ?_⟩
  cases header.alias? with
  | none => exact List.not_mem_nil
  | some clause =>
    exact List.not_mem_append (clause.beforeSemicolon.blank.not_mem (by decide)) <|
      List.not_mem_cons_of_ne_of_not_mem (by decide) <|
      List.not_mem_append (clause.afterSemicolon.blank.not_mem (by decide)) <|
      List.not_mem_append (by decide) <|
      List.not_mem_append (clause.afterAs.blank.not_mem (by decide)) (clause.name.not_mem (by decide))

theorem LoopHeader.source_no_at (header : LoopHeader) : '@' ∉ header.source := by
  have hclause : '@' ∉ header.clause :=
    List.not_mem_append (header.item.not_mem (by decide)) <|
    List.not_mem_append (header.beforeOf.blank.not_mem (by decide)) <|
    List.not_mem_append (by decide) <|
    List.not_mem_append (header.afterOf.blank.not_mem (by decide)) header.iterable.no_at
  refine header.toLayout.wrap_no_at (List.not_mem_append hclause ?_)
  cases header.track? with
  | none => exact List.not_mem_nil
  | some clause =>
    exact List.not_mem_append (clause.beforeSemicolon.blank.not_mem (by decide)) <|
      List.not_mem_cons_of_ne_of_not_mem (by decide) <|
      List.not_mem_append (clause.afterSemicolon.blank.not_mem (by decide)) <|
      List.not_mem_append (by decide) <|
      List.not_mem_append (clause.afterTrack.blank.not_mem (by decide)) clause.key.no_at

theorem LoopHeader.directive_no_at (header : LoopHeader) : '@' ∉ header.directive := by
  have hclause : '@' ∉ "let ".toList ++ header.item.text ++ " of ".toList ++ header.iterable.text :=
    List.not_mem_append (List.not_mem_append (List.not_mem_append (by decide)
      (header.item.not_mem (by decide))) (by decide)) header.iterable.no_at
  refine List.not_mem_append hclause ?_
  cases header.track? with
  | none => exact List.not_mem_nil
  | some clause => exact List.not_mem_append (by decide) clause.key.no_at

end Template

namespace Container

theorem render_defaultTag (directive expression content : Text) :
    render defaultTag directive expression content = element directive expression content := by
  have hopen : "<ng-container ".toList = ['<'] ++ defaultTag ++ [' '] := by decide
  have hvalue : "=\"".toList = ['=', '"'] := by decide
  have hend : "\">".toList = ['"', '>'] := by decide
  have hclose : "</ng-container>".toList = ['<', '/'] ++ defaultTag ++ ['>'] := by decide
  unfold render element opening closing
  rw [hopen, hvalue, hend, hclose]
  simp only [List.append_assoc]

/-- The container of a loop is the element that its header stands for. -/
theorem ofLoop_header (header : LoopHeader) (content : Text) :
    ofLoop defaultTag ⟨header.item.text, header.iterable.text, content,
      header.track?.map fun clause => clause.key.text⟩ = header.element content := by
  have htrack : header.track?.map (fun clause => clause.key.text) ≠ some [] := by
    cases header.track? with
    | none => exact nofun
    | some clause => exact fun h => clause.key.ne_nil (Option.some.inj h)
  have hexpression : loopExpression ⟨header.item.text, header.iterable.text, content,
      header.track?.map fun clause => clause.key.text⟩ = header.directive := by
    refine (loopExpression_eq _ htrack).trans ?_
    unfold LoopHeader.directive
    cases header.track? <;> rfl
  rw [ofLoop, hexpression, render_defaultTag]
  rfl

end Container

/-- A loop becomes its element. -/
theorem Pass.Becomes.loop (header : LoopHeader) {body content : Text} {limit : Nat}
    {After : Text → Prop} (hbody : brace.Balanced body)
    (hcontent : (run .loops Container.defaultTag limit body).result = .ok content) :
    Becomes .loops Container.defaultTag limit After (header.block body) (header.element content) := by
  intro rest _
  obtain ⟨block, hlocate, hstart, hstop, hloop⟩ := Loop.ofBlock_source header hbody rest
  have htext : header.block body ++ rest =
      "@for".toList ++ (header.source ++ (inBraces body ++ rest)) := by
    simp only [LoopHeader.block, List.append_assoc]
  have hcompile : (Construct.loops.compileBlock Container.defaultTag
      (run .loops Container.defaultTag limit) (header.block body ++ rest) block).result =
        .ok (header.element content, (header.block body).length) := by
    rw [Construct.result_compileBlock_loops, htext, hloop]
    simp only [bind, Except.bind, hcontent, pure, Except.pure, hstop, Container.ofLoop_header]
    rfl
  rw [← htext] at hlocate
  rw [run_of_block hlocate hstart hcompile, List.drop_left]

/-- The pass over loops goes into a branch, whose header and braces stay as they are. -/
theorem Pass.Becomes.inBraces {limit : Nat} {front content output rest rest' : Text}
    (hfront : Silent Construct.loops.keyword front)
    (hcontent : Becomes .loops Container.defaultTag limit (fun _ => True) content output)
    (hrest : Becomes .loops Container.defaultTag limit (fun _ => True) rest rest') :
    Becomes .loops Container.defaultTag limit (fun _ => True)
      (front ++ (Template.inBraces content ++ rest)) (front ++ (Template.inBraces output ++ rest')) := by
  have hsplit : ∀ content rest : Text, front ++ (Template.inBraces content ++ rest) =
      front ++ (['{'] ++ (content ++ (['}'] ++ rest))) := by
    intro content rest
    simp only [Template.inBraces, List.cons_append, List.nil_append, List.append_assoc]
  have hopen : Silent Construct.loops.keyword ['{'] := Silent.of_not_mem (by decide)
  have hclose : Silent Construct.loops.keyword ['}'] := Silent.of_not_mem (by decide)
  rw [hsplit, hsplit]
  exact (Becomes.of_silent hfront).append ((Becomes.of_silent hopen).append (hcontent.append
    ((Becomes.of_silent hclose).append hrest fun _ _ => trivial) fun _ _ => trivial)
    fun _ _ => trivial) fun _ _ => trivial

mutual

/-- The pass over loops compiles the loops of a template. -/
theorem Template.becomes_afterLoops (template : Template) {limit : Nat}
    (h : template.loopDepth ≤ limit) :
    Pass.Becomes .loops Container.defaultTag limit (fun _ => True) template.source
      template.afterLoops := by
  match template with
  | .nil => exact .nil
  | .literal text rest =>
    have hrest := rest.becomes_afterLoops h
    exact (Pass.Becomes.of_silent (.of_not_mem text.no_at)).append hrest fun _ _ => trivial
  | .loop header body rest =>
    simp only [loopDepth, Nat.max_le] at h
    obtain ⟨limit, rfl⟩ : ∃ less, limit = less + 1 := ⟨limit - 1, by omega⟩
    have hbody := (body.becomes_afterLoops (by omega : body.loopDepth ≤ limit)).result trivial
    have hrest := rest.becomes_afterLoops h.2
    exact (Pass.Becomes.loop header body.source_balanced hbody).append hrest fun _ _ => trivial
  | .chain header content more rest =>
    simp only [loopDepth, Nat.max_le] at h
    obtain ⟨hcontent, hmore, hrest⟩ := h
    have hwords : '@' ∉ "if".toList ++ header.source :=
      List.not_mem_append (by decide) header.source_no_at
    have hfront : Pass.Silent Construct.loops.keyword ("@if".toList ++ header.source) :=
      .of_other (by decide) hwords
    have hall := Pass.Becomes.inBraces hfront (content.becomes_afterLoops hcontent)
      ((more.becomes_afterLoops hmore).append (rest.becomes_afterLoops hrest) fun _ _ => trivial)
    rw [List.append_assoc, List.append_assoc] at hall
    exact hall

theorem Branches.becomes_afterLoops (more : Branches) {limit : Nat}
    (h : more.loopDepth ≤ limit) :
    Pass.Becomes .loops Container.defaultTag limit (fun _ => True) (more.write LoopHeader.block)
      (more.write LoopHeader.element) := by
  match more with
  | .done => exact .nil
  | .elseIf beforeElse beforeIf header content more =>
    simp only [Branches.loopDepth, Nat.max_le] at h
    have hwords : '@' ∉ "else".toList ++ (beforeIf.text ++ ("if".toList ++ header.source)) :=
      List.not_mem_append (by decide) <| List.not_mem_append (beforeIf.blank.not_mem (by decide)) <|
        List.not_mem_append (by decide) header.source_no_at
    have hfront : Pass.Silent Construct.loops.keyword (beforeElse.text ++ ("@else".toList ++ (beforeIf.text ++
        ("if".toList ++ header.source)))) :=
      (Pass.Silent.of_not_mem (beforeElse.blank.not_mem (by decide))).append
        (.of_other (by decide) hwords)
    have hall := Pass.Becomes.inBraces hfront (content.becomes_afterLoops h.1)
      (more.becomes_afterLoops h.2)
    simp only [List.append_assoc] at hall
    exact hall
  | .otherwise beforeElse beforeBody content =>
    have hwords : '@' ∉ "else".toList ++ beforeBody.text :=
      List.not_mem_append (by decide) (beforeBody.blank.not_mem (by decide))
    have hfront : Pass.Silent Construct.loops.keyword (beforeElse.text ++ ("@else".toList ++ beforeBody.text)) :=
      (Pass.Silent.of_not_mem (beforeElse.blank.not_mem (by decide))).append
        (.of_other (by decide) hwords)
    have hall := Pass.Becomes.inBraces hfront (content.becomes_afterLoops h) .nil
    simp only [List.append_assoc, List.append_nil] at hall
    exact hall

end

/-! ## The pass over chains -/

namespace Chain.Ends

theorem nil : Ends [] := rfl

theorem of_head {c : Char} (hblank : isBlank c = false) (hc : c ≠ '@') (rest : Text) :
    Ends (c :: rest) := by
  unfold Ends
  rw [Text.trimStart_of_head (by simpa using hblank), Option.eq_none_iff_forall_not_mem]
  intro found hfound
  exact hc (List.cons.inj (Text.after?_eq_some_iff.1 hfound)).1

theorem append {text rest : Text} (h : '@' ∉ text) (hrest : Ends rest) : Ends (text ++ rest) := by
  induction text with
  | nil => exact hrest
  | cons c cs ih =>
    simp only [List.mem_cons, not_or] at h
    cases hc : isBlank c with
    | true =>
      have hblank : Text.Blank [c] := by simpa [Text.Blank] using hc
      have := hblank.trimStart_append (cs ++ rest)
      rw [Ends, List.cons_append, ← List.singleton_append, this]
      exact ih h.2
    | false => exact of_head hc (Ne.symm h.1) (cs ++ rest)

end Chain.Ends

/-- What the pass over chains needs of a way to write loops: it is a frame around the body in which
no chain begins or goes on, and it leaves braces balanced. -/
structure Template.FramesLoops (loop : LoopHeader → Text → Text) : Prop where
  frame : ∀ header, ∃ front back, (∀ body, loop header body = front ++ (body ++ back)) ∧
    Pass.Silent Construct.chains.keyword front ∧ (∀ rest, Chain.Ends (front ++ rest)) ∧ '@' ∉ back
  balanced : ∀ header body, brace.Balanced body → brace.Balanced (loop header body)

theorem Template.framesLoops_block : FramesLoops LoopHeader.block where
  frame header := by
    refine ⟨"@for".toList ++ (header.source ++ ['{']), ['}'], fun body => ?_, ?_, fun rest => ?_,
      by decide⟩
    · simp only [LoopHeader.block, Template.inBraces, List.append_assoc, List.cons_append,
        List.nil_append]
    · have hfree : '@' ∉ "for".toList ++ (header.source ++ ['{']) :=
        List.not_mem_append (by decide) (List.not_mem_append header.source_no_at (by decide))
      exact .of_other (by decide) hfree
    · have hblank : isBlank '@' = false := by decide
      unfold Chain.Ends
      rw [Text.trimStart_of_head (by rintro c ⟨⟩; exact hblank)]
      rfl
  balanced header _ := header.block_balanced

theorem Template.framesLoops_element : FramesLoops LoopHeader.element where
  frame header := by
    refine ⟨opening "*ngFor".toList header.directive, closing, fun _ => rfl, ?_,
      fun _ => .of_head (c := '<') (by decide) (by decide) _, by decide⟩
    exact .of_not_mem <| List.not_mem_append
      (List.not_mem_append (by decide) header.directive_no_at) (by decide)
  balanced header _ hbody := element_balanced (by decide) header.directive_balanced hbody

theorem Template.ends_write {loop : LoopHeader → Text → Text} (hloop : FramesLoops loop)
    (template : Template) {rest : Text} (h : Chain.Ends rest) :
    Chain.Ends (template.write loop ++ rest) := by
  match template with
  | .nil => exact h
  | .literal text rest' =>
    have := Chain.Ends.append text.no_at (rest'.ends_write hloop h)
    rwa [← List.append_assoc] at this
  | .loop header body rest' =>
    obtain ⟨front, back, hframe, -, hends, -⟩ := hloop.frame header
    simp only [write, hframe, List.append_assoc]
    exact hends _
  | .chain header content more rest' =>
    have hblank : isBlank '@' = false := by decide
    unfold Chain.Ends
    rw [Text.trimStart_of_head (by rintro c ⟨⟩; exact hblank)]
    rfl

theorem Template.ends_afterLoops (template : Template) {rest : Text} (h : Chain.Ends rest) :
    Chain.Ends (template.afterLoops ++ rest) := template.ends_write framesLoops_element h

/-- The elements of the further branches of a chain, each on a line of its own, where `earlier` are
the conditions of the branches before and `content` gives what is in them. -/
def Branches.render (content : Template → Text) (earlier : List Text) : Branches → Text
  | .done => []
  | .elseIf _ _ header body more =>
    '\n' :: (header.element earlier (content body) ++
      more.render content (earlier ++ [header.condition.text]))
  | .otherwise _ _ body =>
    '\n' :: Template.element "*ngIf".toList (Guard.conjunction earlier none) (content body)

mutual

/-- A template of which the chains are compiled, where `loop` writes a loop around a body. -/
def Template.elements (loop : LoopHeader → Text → Text) : Template → Text
  | .nil => []
  | .literal text rest => text.text ++ rest.elements loop
  | .loop header body rest => loop header (body.elements loop) ++ rest.elements loop
  | .chain header content more rest =>
    header.element [] (content.elements loop).trimStart ++
      (more.elements loop [header.condition.text] ++ rest.elements loop)

def Branches.elements (loop : LoopHeader → Text → Text) (earlier : List Text) : Branches → Text
  | .done => []
  | .elseIf _ _ header content more =>
    '\n' :: (header.element earlier (content.elements loop).trimStart ++
      more.elements loop (earlier ++ [header.condition.text]))
  | .otherwise _ _ content =>
    '\n' :: Template.element "*ngIf".toList (Guard.conjunction earlier none)
      (content.elements loop).trimStart

end

theorem Branches.elements_eq_render (loop : LoopHeader → Text → Text) (earlier : List Text)
    (more : Branches) :
    more.elements loop earlier =
      more.render (fun body => (body.elements loop).trimStart) earlier := by
  match more with
  | .done => rfl
  | .elseIf _ _ _ _ more => simp only [elements, render, more.elements_eq_render loop]
  | .otherwise _ _ _ => rfl

mutual

theorem Template.image_eq_elements (template : Template) :
    template.image = template.elements LoopHeader.element := by
  match template with
  | .nil => rfl
  | .literal text rest => exact congrArg (text.text ++ ·) rest.image_eq_elements
  | .loop header body rest =>
    have hbody := body.image_eq_elements
    have hrest := rest.image_eq_elements
    rw [image] at hbody hrest
    simp only [image, markup, elements, hbody, hrest]
  | .chain header content more rest =>
    have hcontent := content.image_eq_elements
    have hrest := rest.image_eq_elements
    rw [image] at hcontent hrest
    simp only [image, markup, elements, hcontent, hrest, more.markup_eq_elements]

theorem Branches.markup_eq_elements (more : Branches) (earlier : List Text) :
    more.markup Text.trimStart earlier = more.elements LoopHeader.element earlier := by
  match more with
  | .done => rfl
  | .elseIf _ _ header content more =>
    have hcontent := content.image_eq_elements
    rw [Template.image] at hcontent
    simp only [Branches.markup, Branches.elements, hcontent, more.markup_eq_elements]
  | .otherwise _ _ content =>
    have hcontent := content.image_eq_elements
    rw [Template.image] at hcontent
    simp only [Branches.markup, Branches.elements, hcontent]

end

namespace Container

theorem ofBranch_header (header : BranchHeader) (earlier : List Text) (content : Text) :
    ofBranch defaultTag (header.branch content)
      (Guard.conjunction earlier (some header.condition.text)) = header.element earlier content := by
  have halias : header.alias?.map (fun clause => clause.name.text) ≠ some [] := by
    cases header.alias? with
    | none => exact nofun
    | some clause => exact fun h => clause.name.ne_nil (Option.some.inj h)
  have hbinding : binding (Guard.conjunction earlier (some header.condition.text))
      (header.branch content).alias? = header.directive earlier := by
    refine (binding_eq _ _ halias).trans ?_
    unfold BranchHeader.directive
    cases header.alias? <;> rfl
  rw [ofBranch, hbinding, render_defaultTag]
  rfl

/-- The containers of the further branches are their elements. -/
theorem flatMap_branches (content : Template → Text) (more : Branches) (earlier : List Text) :
    (List.zipWith (ofBranch defaultTag) (more.toList content)
      (Guard.ofChainFrom (Guard.conjunction earlier none) (more.toList content))).flatMap
        (['\n'] ++ ·) = more.render content earlier := by
  match more with
  | .done => rfl
  | .elseIf _ _ header body more =>
    have hmore := flatMap_branches content more (earlier ++ [header.condition.text])
    rw [Branches.toList, Guard.ofChainFrom_cons, List.zipWith_cons_cons, List.flatMap_cons]
    rw [show (header.branch (content body)).condition? = some header.condition.text from rfl,
      ofBranch_header, Option.toList_some, hmore]
    rfl
  | .otherwise _ _ body =>
    have hbranch : ofBranch defaultTag ⟨none, content body, none⟩
        (Guard.conjunction earlier none) =
        element "*ngIf".toList (Guard.conjunction earlier none) (content body) :=
      render_defaultTag _ _ _
    rw [Branches.toList, Guard.ofChainFrom_cons, List.zipWith_cons_cons, List.flatMap_cons, hbranch]
    simp only [Guard.ofChainFrom, List.zipWith_nil_left, List.flatMap_nil, List.append_nil]
    rfl

end Container

/-- The contents of the branches of a chain, each compiled by itself. -/
theorem Pass.run_content {text output : Text} {limit : Nat}
    (h : Becomes .chains Container.defaultTag limit Chain.Ends text output) :
    (run .chains Container.defaultTag (limit + 1) text.trimStart).result = .ok output.trimStart := by
  rw [run_trimStart, h.result .nil]
  rfl

/-- A chain becomes the elements of its branches, whose contents `written` spells and the pass
turns into `made`. -/
theorem Pass.Becomes.chain {written made : Template → Text}
    (hwritten : ∀ body, brace.Balanced (written body)) (header : BranchHeader) (body : Template)
    (more : Branches) {limit : Nat}
    (hbody : (run .chains Container.defaultTag limit (written body).trimStart).result = .ok (made body))
    (hmore : (more.toList fun body => (written body).trimStart).mapM (fun branch => do
        let content ← (run .chains Container.defaultTag limit branch.content).result
        return { branch with content }) = .ok (more.toList made)) :
    Becomes .chains Container.defaultTag limit Chain.Ends
      ("@if".toList ++ (header.source ++ (Template.inBraces (written body) ++ more.spell written)))
      (header.element [] (made body) ++ more.render made [header.condition.text]) := by
  intro rest hrest
  obtain ⟨block, hlocate, hstart, hchain⟩ := Chain.ofBlock_spell hwritten header body more hrest
  generalize htext : "@if".toList ++ (header.source ++ (Template.inBraces (written body) ++
    (more.spell written ++ rest))) = text at hlocate hchain
  have hsource : "@if".toList ++ (header.source ++ (Template.inBraces (written body) ++
      more.spell written)) ++ rest = text := by
    rw [← htext, List.append_assoc, List.append_assoc, List.append_assoc]
  have hcompile : (Construct.chains.compileBlock Container.defaultTag
      (run .chains Container.defaultTag limit) text block).result =
        .ok (header.element [] (made body) ++ more.render made [header.condition.text],
          ("@if".toList ++ (header.source ++ (Template.inBraces (written body) ++
            more.spell written))).length) := by
    have hcontainers : Container.ofChain Container.defaultTag
        (header.branch (made body) :: more.toList made) =
        header.element [] (made body) ++ more.render made [header.condition.text] := by
      have hfirst := Container.ofBranch_header header [] (made body)
      rw [Guard.conjunction_nil] at hfirst
      rw [Container.ofChain_cons, ← Container.flatMap_branches]
      exact congrArg (· ++ _) hfirst
    have hbranches : (header.branch (written body).trimStart ::
        more.toList fun body => (written body).trimStart).mapM (fun branch => do
          let content ← (run .chains Container.defaultTag limit branch.content).result
          return { branch with content }) =
        .ok (header.branch (made body) :: more.toList made) := by
      rw [List.mapM_cons, hmore]
      simp only [BranchHeader.branch, hbody]
      rfl
    rw [Construct.result_compileBlock_chains, hchain]
    simp only [bind, Except.bind] at hbranches ⊢
    rw [hbranches]
    simp only [pure, Except.pure, hcontainers]
  rw [hsource, run_of_block hlocate hstart hcompile, ← hsource, List.drop_left]

mutual

/-- The pass over chains compiles the chains of a template, whichever way its loops are written. -/
theorem Template.becomes_elements {loop : LoopHeader → Text → Text} (hloop : FramesLoops loop)
    (template : Template) {limit : Nat} (h : template.chainDepth ≤ limit) :
    Pass.Becomes .chains Container.defaultTag limit Chain.Ends (template.write loop)
      (template.elements loop) := by
  match template with
  | .nil => exact .nil
  | .literal text rest =>
    exact (Pass.Becomes.of_silent (.of_not_mem text.no_at)).append (rest.becomes_elements hloop h)
      fun _ => rest.ends_write hloop
  | .loop header body rest =>
    simp only [chainDepth, Nat.max_le] at h
    obtain ⟨front, back, hframe, hfront, -, hback⟩ := hloop.frame header
    have hbody : Pass.Becomes .chains Container.defaultTag limit Chain.Ends
        (loop header (body.write loop)) (loop header (body.elements loop)) := by
      rw [hframe, hframe]
      exact (Pass.Becomes.of_silent hfront).append
        ((body.becomes_elements hloop h.1).append (.of_silent (.of_not_mem hback))
          fun _ => Chain.Ends.append hback)
        fun _ hrest => by
          rw [List.append_assoc]
          exact body.ends_write hloop (Chain.Ends.append hback hrest)
    exact hbody.append (rest.becomes_elements hloop h.2) fun _ => rest.ends_write hloop
  | .chain header content more rest =>
    simp only [chainDepth, Nat.max_le] at h
    obtain ⟨hcontent, hmore, hrest⟩ := h
    obtain ⟨inner, rfl⟩ : ∃ less, limit = less + 1 := ⟨limit - 1, by omega⟩
    have hbody := Pass.run_content
      (content.becomes_elements hloop (by omega : content.chainDepth ≤ inner))
    have hchain := Pass.Becomes.chain (fun body => body.write_balanced hloop.balanced) header content
      more hbody (more.mapM_elements hloop hmore)
    have hall := hchain.append (rest.becomes_elements hloop hrest) fun _ => rest.ends_write hloop
    rw [List.append_assoc, List.append_assoc, List.append_assoc, List.append_assoc,
      ← more.write_eq_spell, ← more.elements_eq_render] at hall
    exact hall

/-- The contents of further branches are compiled as well. -/
theorem Branches.mapM_elements {loop : LoopHeader → Text → Text} (hloop : FramesLoops loop)
    (more : Branches) {limit : Nat} (h : more.chainDepth ≤ limit) :
    (more.toList fun body => (body.write loop).trimStart).mapM (fun branch => do
      let content ← (Pass.run .chains Container.defaultTag limit branch.content).result
      return { branch with content }) =
      .ok (more.toList fun body => (body.elements loop).trimStart) := by
  match more with
  | .done => rfl
  | .elseIf _ _ header content more =>
    simp only [Branches.chainDepth, Nat.max_le] at h
    obtain ⟨inner, rfl⟩ : ∃ less, limit = less + 1 := ⟨limit - 1, by omega⟩
    have hbody := Pass.run_content
      (content.becomes_elements hloop (by omega : content.chainDepth ≤ inner))
    rw [Branches.toList, List.mapM_cons, more.mapM_elements hloop h.2]
    simp only [BranchHeader.branch, hbody]
    rfl
  | .otherwise _ _ content =>
    simp only [Branches.chainDepth] at h
    obtain ⟨inner, rfl⟩ : ∃ less, limit = less + 1 := ⟨limit - 1, by omega⟩
    have hbody := Pass.run_content
      (content.becomes_elements hloop (by omega : content.chainDepth ≤ inner))
    rw [Branches.toList, List.mapM_cons, List.mapM_nil]
    simp only [hbody]
    rfl

end

/-- The pass over chains makes the image of a template whose loops are compiled. -/
theorem Template.becomes_image (template : Template) {limit : Nat}
    (h : template.chainDepth ≤ limit) :
    Pass.Becomes .chains Container.defaultTag limit Chain.Ends template.afterLoops template.image := by
  rw [template.image_eq_elements]
  exact template.becomes_elements framesLoops_element h

/-! ## The whole compiler -/

/-- **A written template compiles to its image.** This holds for every tree and all the blanks it is
written with, as long as it is nested less deep than the passes can go. -/
theorem Template.compile_source (template : Template) (limits : NestingLimits)
    (hloops : template.loopDepth < limits.loops) (hchains : template.chainDepth < limits.chains) :
    (Compiler.compile limits Container.defaultTag template.source).result = .ok template.image := by
  obtain ⟨loops, chains⟩ := limits
  obtain ⟨loops, rfl⟩ : ∃ less, loops = less + 1 := ⟨loops - 1, by simp at hloops; omega⟩
  obtain ⟨chains, rfl⟩ : ∃ less, chains = less + 1 := ⟨chains - 1, by simp at hchains; omega⟩
  have hfirst := template.becomes_afterLoops (Nat.le_of_lt_succ hloops)
  have hsecond := template.becomes_image (Nat.le_of_lt_succ hchains)
  exact Compiler.compile_of_passes (hfirst.result trivial) (hsecond.result .nil)

namespace Template

/-- No blanks in the parentheses of a header, and one around them. -/
def Layout.spaced : Layout := ⟨Gap.space.toBlanks, ⟨[], .nil⟩, ⟨[], .nil⟩, Gap.space.toBlanks⟩

theorem EndsInAlias.semicolon_mem {text : Text} (h : EndsInAlias text) : ';' ∈ text := by
  obtain ⟨expression, blanks, gap, name, -, -, -, -, -, rfl⟩ := h
  exact List.mem_append_right _ List.mem_cons_self

/-- A header whose condition is one letter. -/
def BranchHeader.letter (alias? : Option AliasClause) : BranchHeader where
  toLayout := .spaced
  condition := ⟨['a'], by decide, by decide, by decide, by decide, by decide⟩
  alias? := alias?
  plain _ h := absurd h.semicolon_mem (by decide)

/-- A chain with an alias and an `@else`, in a loop with a track clause. -/
def sample : Template :=
  .loop
    { Layout.spaced with
      item := ⟨['x'], by decide⟩
      beforeOf := .space
      afterOf := .space
      iterable := ⟨"xs".toList, by decide, by decide, by decide, by decide, by decide⟩
      no_semicolon := by decide
      track? := some ⟨⟨[], .nil⟩, Gap.space.toBlanks, .space,
        ⟨"x.id".toList, by decide, by decide, by decide, by decide, by decide⟩⟩ }
    (.chain (.letter (some ⟨⟨[], .nil⟩, Gap.space.toBlanks, .space, ⟨['b'], by decide⟩⟩))
      (.literal ⟨" <b>B</b>".toList, by decide, by decide⟩ .nil)
      (.otherwise Gap.space.toBlanks Gap.space.toBlanks (.literal ⟨['n', 'o'], by decide, by decide⟩ .nil))
      .nil)
    .nil

theorem compile_source_sample :
    sample.loopDepth < NestingLimits.default.loops ∧
      sample.chainDepth < NestingLimits.default.chains ∧
      sample.source =
        "@for (x of xs; track x.id) \x7b@if (a; as b) \x7b <b>B</b>\x7d @else \x7bno\x7d\x7d".toList ∧
      (Compiler.compile .default Container.defaultTag sample.source).result =
        .ok ("<ng-container *ngFor=\"let x of xs; trackBy: x.id\">".toList ++
          "<ng-container *ngIf=\"a; let b\"><b>B</b></ng-container>\n".toList ++
          "<ng-container *ngIf=\"!(a)\">no</ng-container></ng-container>".toList) := by
  refine ⟨by decide, by decide, by decide +kernel, ?_⟩
  rw [compile_source sample .default (by decide) (by decide)]
  decide +kernel

/-- The blanks at the front of a branch do not come through, so not every literal is unchanged. -/
theorem not_compile_source_untrimmed :
    ¬ ∀ (template : Template) (limits : NestingLimits), template.loopDepth < limits.loops →
      template.chainDepth < limits.chains →
      (Compiler.compile limits Container.defaultTag template.source).result =
        .ok (template.markup id) := by
  intro h
  have := h (.chain (.letter none) (.literal ⟨" x".toList, by decide, by decide⟩ .nil) .done .nil)
    .default (by decide) (by decide)
  revert this
  decide +kernel

end Template

end FlowTemplate
