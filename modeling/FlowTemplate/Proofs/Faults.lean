/-
Where faults end. The scanner and the two parsers fail in few ways, each caught by the one who calls
them, so that a pass can only meet its limit and the compiler gives an answer for every text.
-/
import FlowTemplate.Proofs.Outline.Nesting

namespace FlowTemplate

/-- How a search ends for a group that would open at an offset. The closing delimiter is asked for only
where the opener stands in the text, so the search cannot miss a character or a delimiter there. -/
inductive GroupSearch (kind : Delimiter) (text : Text) (start : Nat) : Except Fault Span → Prop
  | missing (absent : text[start]? ≠ some kind.opener) :
    GroupSearch kind text start (.error (.malformedHeader start []))
  | unclosed (inside : start < text.length) (opener : text[start]? = some kind.opener)
    (asked : findClosing text start = .error (.unbalanced start)) :
    GroupSearch kind text start (.error (.unbalanced start))
  | closed {closing} (inside : start < text.length) (opener : text[start]? = some kind.opener)
    (asked : findClosing text start = .ok closing) :
    GroupSearch kind text start (.ok ⟨start, closing + 1⟩)

theorem groupSearch_expectGroup (kind : Delimiter) (text : Text) (index : Nat) :
    GroupSearch kind text (skipBlanks text index) (expectGroup text index kind.opener) := by
  by_cases hopener : text[skipBlanks text index]? = some kind.opener
  · obtain ⟨hinside, -⟩ := List.getElem?_eq_some_iff.1 hopener
    simp only [expectGroup, if_pos hopener]
    rcases findClosing_of_opener kind hopener with ⟨closing, hclosing⟩ | hunbalanced
    · rw [hclosing]
      exact .closed hinside hopener hclosing
    · rw [hunbalanced]
      exact .unclosed hinside hopener hunbalanced
  · simp only [expectGroup, if_neg hopener]
    exact .missing hopener

namespace Pass.StaysWithin

variable {construct : Construct} {tag text : Text} {limit : Nat}

theorem exists_run (h : StaysWithin construct limit text) (tag : Text) :
    ∃ output, (run construct tag limit text).result = .ok output :=
  ⟨compiled construct tag text, by rw [result_run, if_pos h]⟩

theorem of_run {output : Text} (h : (run construct tag limit text).result = .ok output) :
    StaysWithin construct limit text := by
  rw [result_run] at h
  split at h
  next hstays => exact hstays
  next => cases h

end Pass.StaysWithin

/-- **No fault of the scanner or the parsers reaches the caller.** The compiler returns a text, and so
does each pass below its limit; at any depth a pass fails only because blocks are nested too deep. Of
what `locate` finds every block begins a chain, a block that begins no loop has a malformed header, and
`locate` itself and the reading of a further branch fail in the ways that their callers catch. A search
for a group asks for the closing delimiter only where the text has the opener. -/
theorem Compiler.no_fault_escapes (limits : NestingLimits) (construct : Construct) (kind : Delimiter)
    (tag text keyword : Text) (limit start : Nat) :
    (∃ output, (compile limits tag text).result = .ok output) ∧
    (Pass.StaysWithin .loops limits.loops text →
      ∃ output, (compileLoops limits tag text).result = .ok output) ∧
    (Pass.StaysWithin .chains limits.chains text →
      ∃ output, (compileChains limits tag text).result = .ok output) ∧
    (∀ fault, (Pass.run construct tag limit text).result = .error fault → fault = .nestingTooDeep) ∧
    (∀ block, locate text keyword start = .ok (some block) →
      (∃ branches, (Chain.ofBlock text block).result = .ok branches) ∧
      ∀ fault, (Loop.ofBlock text block).result = .error fault →
        ∃ header, fault = .malformedHeader block.start header) ∧
    (∀ fault, locate text keyword start = .error fault → fault.OfGroup) ∧
    (∀ fault, Chain.continuation text start = .error fault → fault = .brokenContinuation start) ∧
    GroupSearch kind text (skipBlanks text start) (expectGroup text start kind.opener) := by
  refine ⟨⟨_, result_compile limits tag text⟩, (·.exists_run tag), (·.exists_run tag),
    fun fault => Pass.run_error, fun block hblock => ⟨?_, fun fault => Loop.ofBlock_error⟩,
    fun fault hfault => ?_, fun fault => Chain.continuation_error,
    groupSearch_expectGroup kind text start⟩
  · obtain ⟨-, -, hwithin⟩ := locate_ok hblock
    obtain ⟨branches, stop, hchain, -⟩ := Chain.ofBlock_ok hwithin
    exact ⟨_, hchain⟩
  · rcases locate_error hfault with hunbalanced | ⟨position, header, rfl, -⟩
    · exact .inl hunbalanced
    · exact .inr ⟨position, header, rfl⟩

/-- A loop without a variable, a chain that breaks off and a group that does not close. -/
theorem Compiler.no_fault_escapes_sample :
    (∃ output, (compileLoops .default Container.defaultTag
      "@for (xs) \x7by\x7d @if (a) \x7bb\x7d @else if (c @if (".toList).result = .ok output) ∧
    (∃ output, (compileChains .default Container.defaultTag
      "@for (xs) \x7by\x7d @if (a) \x7bb\x7d @else if (c @if (".toList).result = .ok output) ∧
    ∃ branches, (Chain.ofBlock "@for (xs) \x7by\x7d @if (a) \x7bb\x7d @else if (c @if (".toList
      ⟨"for".toList, 0, ⟨5, 9⟩, ⟨10, 13⟩⟩).result = .ok branches := by
  have hall := no_fault_escapes .default .loops .paren Container.defaultTag
    "@for (xs) \x7by\x7d @if (a) \x7bb\x7d @else if (c @if (".toList "for".toList 0 0
  obtain ⟨-, hloops, hchains, -, hblocks, -⟩ := hall
  have hloopsRun : (Pass.run .loops Container.defaultTag NestingLimits.default.loops
      "@for (xs) \x7by\x7d @if (a) \x7bb\x7d @else if (c @if (".toList).result =
      .ok "@for (xs) \x7by\x7d @if (a) \x7bb\x7d @else if (c @if (".toList := by decide +kernel
  have hchainsRun : (Pass.run .chains Container.defaultTag NestingLimits.default.chains
      "@for (xs) \x7by\x7d @if (a) \x7bb\x7d @else if (c @if (".toList).result =
      .ok "@for (xs) \x7by\x7d <ng-container *ngIf=\"a\">b</ng-container> @else if (c @if (".toList := by
    decide +kernel
  exact ⟨hloops (.of_run hloopsRun), hchains (.of_run hchainsRun),
    (hblocks ⟨"for".toList, 0, ⟨5, 9⟩, ⟨10, 13⟩⟩ (by decide +kernel)).1⟩

end FlowTemplate
