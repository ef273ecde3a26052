/-
Bodies of blocks: text without braces, and interpolated expressions in it. The closing braces of a body
stand in pairs, and if no expression has a quote in it, the body is balanced between every two quotes.
-/
import FlowTemplate.Proofs.Interpolation.Pairs
import FlowTemplate.Proofs.Template.Basic

namespace FlowTemplate.Interpolation

open Delimiter

/-! ## What bodies are made of -/

/-- Text without braces and at signs. -/
structure Plain where
  text : Text
  ne_nil : text ≠ []
  no_at : '@' ∉ text
  no_opener : '{' ∉ text
  no_closer : '}' ∉ text

/-- An expression between two pairs of braces, with blanks around it. -/
structure Interpolated extends Plain where
  trimmed : text.trim = text
  before : Template.Blanks
  after : Template.Blanks

/-- A piece of a body. -/
inductive Piece where
  | plain (text : Plain)
  | interpolated (expression : Interpolated)

/-- A piece as it is written. -/
def Piece.source : Piece → Text
  | plain text => text.text
  | interpolated expression =>
    opening ++ (expression.before.text ++ expression.text ++ expression.after.text) ++ closing

/-- A sequence of pieces. -/
abbrev Body := List Piece

namespace Body

/-- A body as it is written. -/
def source (body : Body) : Text := body.flatMap Piece.source

/-- A body that begins with an interpolated expression. -/
def BeginsInterpolated (body : Body) : Prop :=
  ∃ expression rest, body = .interpolated expression :: rest

/-- A body without quotes in its expressions. -/
def QuoteFree (body : Body) : Prop := ∀ expression, .interpolated expression ∈ body → '"' ∉ expression.text

theorem source_cons (piece : Piece) (rest : Body) :
    source (piece :: rest) = piece.source ++ rest.source := List.flatMap_cons

end Body

theorem Interpolated.free (expression : Interpolated) {c : Char} (hc : isBlank c = false)
    (h : c ∉ expression.text) :
    c ∉ expression.before.text ++ expression.text ++ expression.after.text :=
  List.not_mem_append (List.not_mem_append (expression.before.blank.not_mem hc) h)
    (expression.after.blank.not_mem hc)

theorem Piece.balanced (piece : Piece) : brace.Balanced piece.source := by
  cases piece with
  | plain text => exact .of_free text.no_opener text.no_closer
  | interpolated expression =>
    have hinside : brace.Balanced
        (expression.before.text ++ expression.text ++ expression.after.text) :=
      .of_free (expression.free (by decide) expression.no_opener)
        (expression.free (by decide) expression.no_closer)
    simpa [source, Interpolation.opening, Interpolation.closing, opener, closer] using
      hinside.group.group

namespace Body

theorem balanced (body : Body) : brace.Balanced body.source := by
  induction body with
  | nil => exact .nil
  | cons piece rest ih =>
    rw [source_cons]
    exact piece.balanced.append ih

theorem source_no_at (body : Body) : '@' ∉ body.source := by
  intro h
  obtain ⟨piece, -, h⟩ := List.mem_flatMap.1 h
  cases piece with
  | plain text => exact text.no_at h
  | interpolated expression =>
    have hinside := expression.free (by decide) expression.no_at
    revert h
    exact List.not_mem_append (List.not_mem_append (by decide) hinside) (by decide)

theorem source_paired (body : Body) : Paired body.source := by
  induction body with
  | nil => exact .nil
  | cons piece rest ih =>
    rw [source_cons]
    refine Paired.append ?_ ih
    cases piece with
    | plain text => exact .of_free text.no_closer
    | interpolated expression =>
      have hinside := expression.free (by decide) expression.no_closer
      exact ((Paired.of_free (by decide)).append (.of_free hinside)).append (.pair .nil)

theorem head?_source (body : Body) (h : ¬ body.BeginsInterpolated) :
    body.source.head? ≠ some '{' := by
  cases body with
  | nil => simp [source]
  | cons piece rest =>
    cases piece with
    | plain text =>
      rw [source_cons, Piece.source, List.head?_append_of_ne_nil _ text.ne_nil]
      exact fun hhead => text.no_opener (List.mem_of_mem_head? hhead)
    | interpolated expression => exact absurd ⟨expression, rest, rfl⟩ h

theorem balanced_before_quote {body : Body} (h : body.QuoteFree) {front back : Text}
    (hsource : body.source = front ++ '"' :: back) : brace.Balanced front := by
  induction body generalizing front with
  | nil => simp [source] at hsource
  | cons piece rest ih =>
    have hrest : QuoteFree rest := fun expression hm => h expression (List.mem_cons_of_mem _ hm)
    rw [source_cons] at hsource
    rcases List.append_eq_append_iff.1 hsource with ⟨more, rfl, hmore⟩ | ⟨more, hfront, hmore⟩
    · exact piece.balanced.append (ih hrest hmore)
    · cases more with
      | nil =>
        have hpiece := piece.balanced
        rwa [hfront, List.append_nil] at hpiece
      | cons c more =>
        obtain ⟨rfl, -⟩ := List.cons.inj hmore
        cases piece with
        | plain text =>
          rw [Piece.source] at hfront
          exact .of_free (fun hm => text.no_opener (hfront ▸ List.mem_append_left _ hm))
            (fun hm => text.no_closer (hfront ▸ List.mem_append_left _ hm))
        | interpolated expression =>
          have hquote := expression.free (by decide) (h expression List.mem_cons_self)
          have hsource : '"' ∉ Piece.source (.interpolated expression) :=
            List.not_mem_append (List.not_mem_append (by decide) hquote) (by decide)
          exact absurd (hfront ▸ List.mem_append_right _ List.mem_cons_self) hsource

theorem levelQuotes {body : Body} (h : body.QuoteFree) : LevelQuotes body.source := by
  intro front value back hsource
  have hfront := balanced_before_quote h hsource
  have hagain : body.source = front ++ ['"'] ++ value ++ '"' :: back := by
    rw [hsource]
    simp
  have hvalue := balanced_before_quote h hagain
  rw [balanced_iff_level?, level?_append, (hfront.append (by decide)).level?] at hvalue
  exact balanced_iff_level?.2 hvalue

/-- **Interpolation leaves a body balanced**, if no quote stands in its expressions. -/
theorem compile_balanced {body : Body} (h : body.QuoteFree) : brace.Balanced (compile body.source) := by
  rw [balanced_iff_level?, compile, level?_compileContent, level?_compileAttributes (levelQuotes h)]
  exact body.balanced.level?

end Body

/-! ## No at signs -/

theorem concatenation_no_at {value : Text} (h : '@' ∉ value) : '@' ∉ concatenation value := by
  refine (Text.not_mem_joinWith_iff (by decide)).2 fun part hpart => ?_
  obtain ⟨segment, hsegment, rfl⟩ := List.mem_map.1 hpart
  have hfree := Segment.not_mem_of_mem h hsegment
  cases segment with
  | gap text => exact List.not_mem_append (List.not_mem_append (by decide) hfree) (by decide)
  | hit expression w =>
    obtain ⟨front, rest, -, hread⟩ := Segment.of_hit_mem readExpression_consumes hsegment
    obtain ⟨inside, -, -, rfl, rfl⟩ := readExpression_shape hread
    have hinside : '@' ∉ Text.trim inside := fun hm =>
      hfree (List.mem_append_left _ (List.mem_append_right _ (Text.mem_of_mem_trim hm)))
    exact List.not_mem_append (List.not_mem_append (by decide) hinside) (by decide)

theorem Binding.encode_no_at {bindings : List Binding}
    (h : ∀ binding ∈ bindings, '@' ∉ binding.name ∧ '@' ∉ binding.expression) :
    '@' ∉ encode bindings := by
  have hstring : ∀ {text : Text}, '@' ∉ text → '@' ∉ jsonString text :=
    not_mem_jsonString (by decide)
  have hjson : ∀ binding ∈ bindings, '@' ∉ binding.json := by
    intro binding hbinding
    obtain ⟨hname, hexpression⟩ := h binding hbinding
    exact List.not_mem_append (List.not_mem_append (List.not_mem_append (List.not_mem_append
      (List.not_mem_append (List.not_mem_append (by decide) (hstring hname)) (by decide))
      (by decide)) (by decide)) (hstring hexpression)) (by decide)
  intro hm
  obtain ⟨c, hc, hm⟩ := List.mem_flatMap.1 hm
  obtain rfl := (mem_referQuote hm).resolve_right (by decide)
  have hparts : '@' ∉ Text.joinWith [','] (bindings.map json) :=
    (Text.not_mem_joinWith_iff (by decide)).2 fun part hpart => by
      obtain ⟨binding, hbinding, rfl⟩ := List.mem_map.1 hpart
      exact hjson binding hbinding
  exact List.not_mem_append (List.not_mem_append (by decide) hparts) (by decide) hc

theorem compileTag_no_at {name attributes : Text} (h : '@' ∉ '<' :: (name ++ attributes) ++ ['>']) :
    '@' ∉ compileTag ('<' :: (name ++ attributes) ++ ['>']) name attributes := by
  have hname : '@' ∉ name := fun hm => h (by simp [hm])
  have hattributes : '@' ∉ attributes := fun hm => h (by simp [hm])
  rw [compileTag_eq]
  split
  · exact h
  have hremaining : '@' ∉ remaining attributes := by
    refine Segment.not_mem_rewrite readAttribute_consumes (fun pair w rest _ hw => ?_) hattributes
    unfold leave
    split
    · exact List.not_mem_nil
    · exact hw
  have hencode : '@' ∉ Binding.encode (gathered attributes) := by
    refine Binding.encode_no_at fun binding hbinding => ?_
    obtain ⟨value, front, w, rest, htext, hread, hexpression⟩ := of_mem_gathered hbinding
    obtain ⟨before, after, hshape, -⟩ := readAttribute_eq_some hread
    rw [htext, hshape] at hattributes
    refine ⟨fun hm => hattributes (by simp [hm]), ?_⟩
    rw [hexpression]
    exact concatenation_no_at fun hm => hattributes (by simp [hm])
  have htrimmed : '@' ∉ Text.trim (remaining attributes) := fun hm =>
    hremaining (Text.mem_of_mem_trim hm)
  exact List.not_mem_append (List.not_mem_append (List.not_mem_append (List.not_mem_append
    (List.not_mem_append (List.not_mem_append (List.not_mem_append (by decide) hname) (not_mem_kept (by decide) htrimmed))
    (by decide)) (by decide)) (by decide)) hencode) (by decide)

theorem compile_no_at {text : Text} (h : '@' ∉ text) : '@' ∉ compile text := by
  rw [compile, compileContent_eq_rewrite]
  refine Segment.not_mem_rewrite readExpression_consumes (fun expression w rest hread hw => ?_) ?_
  · obtain ⟨inside, -, -, rfl, rfl⟩ := readExpression_shape hread
    have hinside : '@' ∉ Text.trim inside := fun hm =>
      hw (List.mem_append_left _ (List.mem_append_right _ (Text.mem_of_mem_trim hm)))
    exact List.not_mem_append (List.not_mem_append (by decide) hinside) (by decide)
  · rw [compileAttributes_eq_rewrite]
    refine Segment.not_mem_rewrite readTag_consumes (fun tag w rest hread hw => ?_) h
    obtain ⟨rfl, -⟩ := readTag_shape hread
    exact compileTag_no_at hw

end FlowTemplate.Interpolation
