/-
What a workspace gives and keeps. The configuration that is loaded is the one at the path given, else the
nearest one, else the defaults (`Config.Reader.resolve_eq_ok_iff`); and writing a file changes no other
file, whatever directories are made on the way to it (`Workspace.replaces_write`).
-/
import FlowTemplate.Config.File
import FlowTemplate.Proofs.Except
import Mathlib.Data.List.Basic

namespace FlowTemplate

/-! ## Places in a tree -/

namespace FileTree

theorem lookup_filter_ne {entries : List (List Text × FileNode)} {here other : List Text}
    (h : other ≠ here) :
    (entries.filter fun (name, _) => name ≠ here).lookup other = entries.lookup other := by
  induction entries with
  | nil => rfl
  | cons entry entries ih =>
    obtain ⟨name, node⟩ := entry
    by_cases hname : name = here
    · have hother : (other == name) = false := by simpa [hname] using h
      rw [List.filter_cons_of_neg (by simpa using hname), ih, List.lookup_cons, hother]
    · rw [List.filter_cons_of_pos (by simpa using hname), List.lookup_cons, List.lookup_cons, ih]

theorem find?_of_ne_nil (tree : FileTree) {parts : List Text} (h : parts ≠ []) :
    tree.find? parts = tree.entries.lookup parts := by
  cases parts with
  | nil => exact absurd rfl h
  | cons => rfl

/-- What is put at a place is found there, and nothing else is changed. -/
theorem find?_put (tree : FileTree) {here : List Text} (hne : here ≠ []) (node : FileNode)
    (other : List Text) :
    (tree.put here node).find? other = if other = here then some node else tree.find? other := by
  by_cases hother : other = here
  · rw [if_pos hother, hother, find?_of_ne_nil _ hne, put, List.lookup_cons_self]
  rw [if_neg hother]
  by_cases hnil : other = []
  · rw [hnil]
    rfl
  rw [find?_of_ne_nil _ hnil, find?_of_ne_nil _ hnil, put, List.lookup_cons, beq_false_of_ne hother]
  exact lookup_filter_ne hother

/-- A tree has more directories than another, and is otherwise the same. -/
def Grown (before after : FileTree) : Prop :=
  ∀ parts, after.find? parts = before.find? parts
    ∨ before.find? parts = none ∧ after.find? parts = some .directory

theorem Grown.refl (tree : FileTree) : Grown tree tree := fun _ => .inl rfl

theorem Grown.trans {first second third : FileTree} (h : Grown first second)
    (h' : Grown second third) : Grown first third := by
  intro parts
  obtain hparts | ⟨hnone, hparts⟩ := h' parts
  · rw [hparts]
    exact h parts
  · refine .inr ⟨?_, hparts⟩
    obtain hfirst | ⟨hfirst, -⟩ := h parts
    · rw [← hfirst, hnone]
    · exact hfirst

theorem grown_put_directory {tree : FileTree} {here : List Text} (hne : here ≠ [])
    (h : tree.find? here = none) : Grown tree (tree.put here .directory) := by
  intro parts
  rw [find?_put tree hne]
  split
  next heq => exact .inr ⟨heq ▸ h, rfl⟩
  next => exact .inl rfl

/-- The place behind one more name, whatever there is. -/
def follow (tree : FileTree) (place : Place) (name : Text) : Place :=
  if name = Path.up then tree.around place
  else
    match place with
    | .outside => .outside
    | .inside parts => .inside (parts ++ [name])

theorem around_congr {tree other : FileTree} (h : other.root = tree.root) (place : Place) :
    other.around place = tree.around place := by
  cases place with
  | outside => rfl
  | inside parts =>
    cases parts with
    | nil => simp only [around, h]
    | cons => rfl

theorem follow_congr {tree other : FileTree} (h : other.root = tree.root) :
    other.follow = tree.follow := by
  funext place name
  simp only [follow, around_congr h]

theorem exists_foldl_follow {tree : FileTree} (h : tree.root = []) (names parts : List Text) :
    ∃ parts', names.foldl tree.follow (.inside parts) = .inside parts' := by
  induction names generalizing parts with
  | nil => exact ⟨parts, rfl⟩
  | cons name names ih =>
    have hstep : ∃ parts', tree.follow (.inside parts) name = .inside parts' := by
      by_cases hup : name = Path.up
      · rw [follow, if_pos hup]
        cases parts with
        | nil => exact ⟨[], by simp [around, h]⟩
        | cons part parts => exact ⟨_, rfl⟩
      · rw [follow, if_neg hup]
        exact ⟨_, rfl⟩
    obtain ⟨parts', hparts⟩ := hstep
    rw [List.foldl_cons, hparts]
    exact ih parts'

end FileTree

namespace Workspace

open FileTree

/-! ## Following paths -/

theorem resolve_eq (workspace : Workspace) (path : Path) :
    workspace.resolve path = path.parts.foldl workspace.tree.follow (workspace.start path) := rfl

theorem exists_resolve_eq_inside {workspace : Workspace} (h : workspace.tree.root = [])
    (path : Path) : ∃ parts, workspace.resolve path = .inside parts := by
  have hstart : ∃ parts, workspace.start path = .inside parts := by
    rw [start, h]
    split <;> exact ⟨_, rfl⟩
  obtain ⟨parts, hparts⟩ := hstart
  rw [resolve_eq, hparts]
  exact exists_foldl_follow h path.parts parts

/-- A step leads from a directory to where its name leads. -/
theorem step?_eq_some_iff {workspace : Workspace} {place next : Place} {name : Text} :
    workspace.step? place name = some next ↔
      workspace.tree.node? place = some .directory ∧ workspace.tree.follow place name = next
        ∧ (name = Path.up ∨ place ≠ .outside) := by
  unfold step? follow
  split
  next hnode =>
    rw [hnode]
    by_cases hup : name = Path.up
    · simp [hup]
    · cases place <;> simp [hup]
  next hnode => exact ⟨nofun, fun ⟨hdirectory, _⟩ => (hnode hdirectory).elim⟩

theorem foldlM_step?_eq_some {workspace : Workspace} {names : List Text} {place there : Place}
    (h : names.foldlM workspace.step? place = some there) :
    names.foldl workspace.tree.follow place = there := by
  induction names generalizing place with
  | nil => exact Option.some.inj h
  | cons name names ih =>
    obtain ⟨next, hnext, hrest⟩ := Option.bind_eq_some_iff.1 h
    rw [List.foldl_cons, (step?_eq_some_iff.1 hnext).2.1]
    exact ih hrest

/-- What is found at the end of a path is at the place that the path names. -/
theorem node?_eq_some {workspace : Workspace} {path : Path} {node : FileNode}
    (h : workspace.node? path = some node) :
    path.parts.foldlM workspace.step? (workspace.start path) = some (workspace.resolve path)
      ∧ workspace.tree.node? (workspace.resolve path) = some node := by
  obtain ⟨there, hthere, hnode⟩ := Option.bind_eq_some_iff.1 h
  obtain rfl : workspace.resolve path = there := foldlM_step?_eq_some hthere
  exact ⟨hthere, hnode⟩

/-- A path leads to the same place in another tree that has the directories of the first one. -/
theorem foldlM_step?_of_directories {workspace : Workspace} {after : FileTree}
    (hroot : after.root = workspace.tree.root)
    (hkept : ∀ place, workspace.tree.node? place = some .directory →
      after.node? place = some .directory) {names : List Text} {place there : Place}
    (h : names.foldlM workspace.step? place = some there) :
    names.foldlM { workspace with tree := after }.step? place = some there := by
  induction names generalizing place with
  | nil => exact h
  | cons name names ih =>
    obtain ⟨next, hnext, hrest⟩ := Option.bind_eq_some_iff.1 h
    obtain ⟨hnode, hfollow, hinside⟩ := step?_eq_some_iff.1 hnext
    have hstep : { workspace with tree := after }.step? place name = some next :=
      step?_eq_some_iff.2 ⟨hkept place hnode, by rw [follow_congr hroot, hfollow], hinside⟩
    exact Option.bind_eq_some_iff.2 ⟨next, hstep, ih hrest⟩

/-! ## Writing -/

theorem makeStep_eq_ok {tree after : FileTree} {place next : Place} {name : Text} {last : Bool}
    (h : makeStep tree place name last = .ok (after, next)) :
    after.root = tree.root ∧ Grown tree after ∧ next = tree.follow place name := by
  unfold makeStep at h
  unfold follow
  split at h
  next hup =>
    cases h
    exact ⟨rfl, .refl _, by rw [if_pos hup]⟩
  next hup =>
    rw [if_neg hup]
    cases place with
    | outside =>
      cases h
      exact ⟨rfl, .refl _, rfl⟩
    | inside parts =>
      simp only at h
      split at h
      next =>
        cases h
        exact ⟨rfl, .refl _, rfl⟩
      next => cases h
      next hnone =>
        cases h
        exact ⟨rfl, grown_put_directory (List.concat_ne_nil name parts) hnone, rfl⟩

/-- Making directories leads to where the names lead, and changes nothing that was there. -/
theorem makeDirectories_eq_ok {tree after : FileTree} {place there : Place} {names : List Text}
    (h : makeDirectories tree place names = .ok (after, there)) :
    after.root = tree.root ∧ Grown tree after ∧ there = names.foldl tree.follow place := by
  induction names generalizing tree place with
  | nil =>
    cases h
    exact ⟨rfl, .refl _, rfl⟩
  | cons name names ih =>
    rw [makeDirectories] at h
    obtain ⟨⟨made, next⟩, hstep, hrest⟩ := Except.bind_eq_ok_iff.1 h
    obtain ⟨hroot, hgrown, rfl⟩ := makeStep_eq_ok hstep
    obtain ⟨hroot', hgrown', rfl⟩ := ih hrest
    exact ⟨hroot'.trans hroot, hgrown.trans hgrown', by rw [List.foldl_cons, follow_congr hroot]⟩

/-- A file can be written at a path. -/
def Writable (workspace : Workspace) (path : Path) : Prop :=
  ∀ bytes, ∃ after, workspace.write path bytes = .ok after

/-- A tree has a file with some bytes at the place of a path and is otherwise that of the workspace,
but for directories where nothing was. In a whole file system each path has a place. -/
structure Replaces (workspace : Workspace) (path : Path) (bytes : List UInt8) (after : FileTree) :
    Prop where
  root : after.root = workspace.tree.root
  place : workspace.tree.root = [] → ∃ parts, workspace.resolve path = .inside parts
  there : ∀ parts, workspace.resolve path = .inside parts → after.find? parts = some (.file bytes)
  elsewhere : ∀ parts, workspace.resolve path ≠ .inside parts →
    after.find? parts = workspace.tree.find? parts
      ∨ workspace.tree.find? parts = none ∧ after.find? parts = some .directory

/-- **Writing a file changes nothing else that is there**, whatever directories are made on the way. -/
theorem replaces_write {workspace : Workspace} {path : Path} {bytes : List UInt8} {after : FileTree}
    (h : workspace.write path bytes = .ok after) : workspace.Replaces path bytes after := by
  rw [write] at h
  obtain ⟨⟨tree, around⟩, hmade, h⟩ := Except.bind_eq_ok_iff.1 h
  obtain ⟨hroot, hgrown, haround⟩ := makeDirectories_eq_ok hmade
  simp only at h
  split at h
  next => cases h
  next name hname =>
    have hparts : path.parts = path.parent.parts ++ [name] :=
      (List.dropLast_append_getLast? name hname).symm
    split at h
    next => cases h
    next hup =>
      have hresolve : workspace.resolve path = workspace.tree.follow around name := by
        rw [resolve_eq, hparts, List.foldl_append, ← haround]
        rfl
      unfold follow at hresolve
      rw [if_neg hup] at hresolve
      cases around with
      | outside =>
        cases h
        exact ⟨hroot, (exists_resolve_eq_inside · path),
          fun parts hplace => absurd (hplace.symm.trans hresolve) nofun, fun parts _ => hgrown parts⟩
      | inside parts =>
        simp only at h
        split at h
        next => cases h
        next =>
          have hput := find?_put tree (List.concat_ne_nil name parts) (.file bytes)
          cases h
          refine ⟨hroot, (exists_resolve_eq_inside · path), fun here hplace => ?_,
            fun here hplace => ?_⟩
          · obtain rfl : parts ++ [name] = here := Place.inside.inj (hresolve.symm.trans hplace)
            rw [hput, if_pos rfl]
          · have hother : here ≠ parts ++ [name] := fun heq => hplace (heq ▸ hresolve)
            rw [hput, if_neg hother]
            exact hgrown here

/-- A file that was there before holds what is written to its place, by whatever path it is read. -/
theorem Replaces.node?_eq {workspace : Workspace} {path other : Path} {bytes content : List UInt8}
    {after : FileTree} (h : workspace.Replaces path bytes after)
    (hother : workspace.node? other = some (.file content))
    (hplace : workspace.resolve other = workspace.resolve path) :
    { workspace with tree := after }.node? other = some (.file bytes) := by
  obtain ⟨hfollowed, hthere⟩ := node?_eq_some hother
  cases hresolve : workspace.resolve other with
  | outside =>
    rw [hresolve] at hthere
    cases hthere
  | inside parts =>
    rw [hresolve] at hthere hfollowed
    have hpath : workspace.resolve path = .inside parts := hplace.symm.trans hresolve
    have hkept : ∀ place, workspace.tree.node? place = some .directory →
        after.node? place = some .directory := by
      intro place hnode
      cases place with
      | outside => rfl
      | inside here =>
        have hne : workspace.resolve path ≠ .inside here := by
          rw [hpath]
          rintro ⟨⟩
          exact absurd (hnode.symm.trans hthere) nofun
        obtain hsame | ⟨hnone, -⟩ := h.elsewhere here hne
        · exact hsame.trans hnode
        · exact absurd (hnode.symm.trans hnone) nofun
    have hstart : { workspace with tree := after }.start other = workspace.start other := by
      rw [start, h.root, start]
    refine Option.bind_eq_some_iff.2 ⟨.inside parts, ?_, h.there parts hpath⟩
    rw [hstart]
    exact foldlM_step?_of_directories h.root hkept hfollowed

/-! ## The configuration -/

/-- The place of the configuration file in the directory that the first names lead to. -/
def configPlace (workspace : Workspace) (n : Nat) : List Text :=
  workspace.directory.take n ++ [Config.fileName]

theorem find?_reverse_range_eq_some_iff {p : Nat → Bool} {bound n : Nat} :
    (List.range (bound + 1)).reverse.find? p = some n ↔
      n ≤ bound ∧ p n ∧ ∀ m, n < m → m ≤ bound → p m = false := by
  induction bound with
  | zero =>
    rw [List.range_succ, List.range_zero, List.nil_append, List.reverse_singleton, List.find?_singleton]
    grind
  | succ bound ih =>
    rw [List.range_succ, List.reverse_append, List.reverse_singleton, List.singleton_append,
      List.find?_cons]
    split
    next hlast => grind
    next hlast =>
      rw [ih]
      grind

theorem findConfig_here (workspace : Workspace) :
    workspace.findConfig ⟨false, []⟩ =
      ((List.range (workspace.directory.length + 1)).reverse.find? fun n =>
        (workspace.tree.find? (workspace.configPlace n)).isSome).map workspace.configPlace :=
  List.find?_map ..

end Workspace

namespace Config.Reader

open Workspace

variable {Cause Flaw : Type} {reader : Reader Cause Flaw}

/-- The bytes of a file spell a configuration: they are a text, the text has a value, and the entries of
the value, whose keys are all texts, are those of a configuration. -/
inductive Spells (reader : Reader Cause Flaw) (bytes : List UInt8) (config : Config) : Prop where
  | intro {text : Text} {value : Value} {entries : List (Scalar × Value)}
      (decodes : decode bytes = .ok text) (parses : reader.parse text = .ok value)
      (holds : entries? value = some entries) (keys : entries.all hasTextKey)
      (valid : reader.validate entries = .ok config)

/-- The configuration that is loaded: with a path, the one in the file there; else the one in the
nearest file in the working directory or a directory around it; without any, the defaults. -/
inductive Loads (reader : Reader Cause Flaw) (workspace : Workspace) : Option Path → Config → Prop where
  | given {path : Path} {bytes : List UInt8} {config : Config}
      (found : workspace.node? path = some (.file bytes)) (spells : reader.Spells bytes config) :
      Loads reader workspace (some path) config
  | nearest {n : Nat} {bytes : List UInt8} {config : Config} (around : n ≤ workspace.directory.length)
      (found : workspace.tree.find? (workspace.configPlace n) = some (.file bytes))
      (first : ∀ m, n < m → m ≤ workspace.directory.length →
        workspace.tree.find? (workspace.configPlace m) = none)
      (spells : reader.Spells bytes config) :
      Loads reader workspace none config
  | default (missing : ∀ n ≤ workspace.directory.length,
        workspace.tree.find? (workspace.configPlace n) = none) :
      Loads reader workspace none Config.default

theorem readValue_eq_ok_iff {path text : Text} {value : Value} :
    reader.readValue path text = .ok value ↔ reader.parse text = .ok value := by
  rw [readValue]
  split
  next hparse => rw [hparse, Except.ok.injEq, Except.ok.injEq]
  next hparse => simp [hparse]
  next hparse => simp [hparse]

theorem ofValue_eq_ok_iff {path : Text} {value : Value} {config : Config} :
    reader.ofValue path value = .ok config ↔
      ∃ entries, entries? value = some entries ∧ entries.all hasTextKey ∧
        reader.validate entries = .ok config := by
  rw [ofValue]
  cases entries? value with
  | none => simp
  | some entries =>
    simp only [Option.some.injEq, exists_eq_left']
    split
    next hkeys =>
      rw [Except.mapError_eq_ok_iff]
      exact (and_iff_right hkeys).symm
    next hkeys => exact iff_of_false nofun fun h => hkeys h.1

/-- **What a configuration file is.** -/
theorem load_eq_ok_iff {path : Text} {node? : Option FileNode} {config : Config} :
    reader.load path node? = .ok config ↔
      ∃ bytes, node? = some (.file bytes) ∧ reader.Spells bytes config := by
  match node? with
  | none => simp [load]
  | some .directory => simp [load]
  | some (.file bytes) =>
    simp only [load, Except.bind_eq_ok_iff, Except.mapError_eq_ok_iff, readValue_eq_ok_iff,
      ofValue_eq_ok_iff]
    constructor
    · rintro ⟨text, hdecodes, value, hparses, entries, hholds, hkeys, hvalid⟩
      exact ⟨bytes, rfl, .intro hdecodes hparses hholds hkeys hvalid⟩
    · rintro ⟨_, ⟨⟩, hdecodes, hparses, hholds, hkeys, hvalid⟩
      exact ⟨_, hdecodes, _, hparses, _, hholds, hkeys, hvalid⟩

/-- **Which configuration is loaded.** -/
theorem resolve_eq_ok_iff {workspace : Workspace} {path? : Option Path} {config : Config} :
    reader.resolve workspace path? = .ok config ↔ reader.Loads workspace path? config := by
  cases path? with
  | some path =>
    constructor
    · intro h
      obtain ⟨bytes, hfound, hspells⟩ := load_eq_ok_iff.1 h
      exact .given hfound hspells
    · rintro ⟨hfound, hspells⟩
      exact load_eq_ok_iff.2 ⟨_, hfound, hspells⟩
  | none =>
    rw [resolve, findConfig_here]
    constructor
    · intro h
      cases hfind : (List.range (workspace.directory.length + 1)).reverse.find? fun n =>
          (workspace.tree.find? (workspace.configPlace n)).isSome with
      | none =>
        rw [hfind] at h
        cases h
        refine .default fun n hn => ?_
        simpa using List.find?_eq_none.1 hfind n (by simpa using Nat.lt_succ_of_le hn)
      | some n =>
        rw [hfind] at h
        obtain ⟨hn, -, hfirst⟩ := find?_reverse_range_eq_some_iff.1 hfind
        obtain ⟨bytes, hfound, hspells⟩ := load_eq_ok_iff.1 h
        exact .nearest hn hfound (fun m hm hle => by simpa using hfirst m hm hle) hspells
    · rintro (_ | ⟨hn, hfound, hfirst, hspells⟩ | hmissing)
      · rw [find?_reverse_range_eq_some_iff.2 ⟨hn, by rw [hfound]; rfl,
          fun m hm hle => by rw [hfirst m hm hle]; rfl⟩]
        exact load_eq_ok_iff.2 ⟨_, hfound, hspells⟩
      · rw [List.find?_eq_none.2 fun n hn => by
          rw [hmissing n (by simpa [Nat.lt_succ_iff] using hn)]
          exact nofun]
        rfl

end Config.Reader

end FlowTemplate
