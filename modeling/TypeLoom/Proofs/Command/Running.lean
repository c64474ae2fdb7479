/-
**A run writes all of its output or nothing.**

A run reads every file before it prints the first one and prints every tree before it writes, so one
file that fails, wherever it stands and however late it fails, keeps the output file as it was.
Otherwise the output is made of one piece for each file of the command line.

* `Fails` and `Renders` say what a single file does, whatever the other files are, and one of them
  holds (`fails_or_renders`);
* `outputOf_eq_ok_iff`: there is output just when every file has a piece, and it is the pieces grouped
  by package;
* `Directory.content?_store` is what writing changes;
* `run_writes_all_or_nothing` is the result for the files of the directory.
-/

import Mathlib
import TypeLoom.Command.Run
import TypeLoom.Proofs.Command.Grouping
import TypeLoom.Proofs.Outcomes
import TypeLoom.Proofs.Sequences

namespace TypeLoom

/-! ### Writing a file -/

namespace Directory

theorem lookup_filter_of_ne {files : List (Path × ByteArray)} {place other : Path}
    (different : other ≠ place) :
    (files.filter fun file => file.1 != place).lookup other = files.lookup other := by
  induction files with
  | nil => rfl
  | cons file rest ih =>
    obtain ⟨path, content⟩ := file
    by_cases here : path = place
    · subst here
      have skipped : (other == path) = false := by simpa using different
      simp [ih, List.lookup_cons, skipped]
    · simp [here, List.lookup_cons, ih]

/-- Storing a file changes that file and no other. -/
theorem content?_store (d : Directory) (place : Path) (content : ByteArray) (other : Path) :
    (d.store place content).content? other =
      if other = place then some content else d.content? other := by
  by_cases same : other = place
  · simp [store, content?, same]
  · have different : (other == place) = false := by simpa using same
    rw [if_neg same]
    simp [store, content?, List.lookup_cons, different, lookup_filter_of_ne same]

theorem read_of_resolve {d : Directory} {path text : String} {place : Path}
    (found : d.resolve path = .ok (.file place))
    (content : (d.content? place).bind String.fromUTF8? = some text) : d.read path = .ok text := by
  simp [read, found, content, bind, Except.bind, pure, Except.pure]

/-- The file that writing to a path writes, if there can be one. -/
def target? (d : Directory) (path : String) : Option Path :=
  match d.resolve path with
  | .ok (.file place) => some place
  | .ok (.absent place) => if path.endsWith "/" then none else some place
  | _ => none

theorem write_of_target {d : Directory} {path : String} {place : Path}
    (target : d.target? path = some place) (text : String) :
    d.write path text = .ok (d.store place text.toUTF8) := by
  unfold target? at target
  unfold write
  split at target
  · rename_i found resolved
    cases target
    simp [resolved, bind, Except.bind, pure, Except.pure]
  · rename_i new resolved
    split at target
    · cases target
    · rename_i noSlash
      cases target
      simp [resolved, noSlash, bind, Except.bind, pure, Except.pure]
  · cases target

theorem write_of_no_target {d : Directory} {path : String} (none : d.target? path = none)
    (text : String) : ∃ failure, d.write path text = .error failure := by
  unfold target? at none
  unfold write
  cases resolved : d.resolve path with
  | error failure => exact ⟨failure, rfl⟩
  | ok place =>
    cases place with
    | file place => simp [resolved] at none
    | inside place => exact ⟨_, rfl⟩
    | absent place =>
      have slash : path.endsWith "/" = true := by simpa [resolved] using none
      exact ⟨.directory, by simp [slash, bind, Except.bind, throw, throwThe, MonadExceptOf.throw]⟩

end Directory

namespace Command

variable {settings : Settings} {d : Directory} {args : Arguments}

/-! ### What a file does -/

/-- A file that stops a run: it cannot be read, it is no source, or it is to be expanded and cannot
be. -/
inductive Fails (settings : Settings) (d : Directory) (action : Action) (file : String) : Prop
  | unreadable {failure : FileFailure} : d.read file = .error failure → Fails settings d action file
  | malformed {source : String} {error : SyntaxError} : d.read file = .ok source →
      parse source (.file file) settings.forFile = .error error → Fails settings d action file
  | unexpandable {source : String} {tree : Tree} {failure : Failure} : action = .expansion →
      d.read file = .ok source → parse source (.file file) settings.forFile = .ok tree →
      expand settings tree = .error failure → Fails settings d action file

/-- The piece of a file: the package it declares and what is printed for it. -/
def Renders (settings : Settings) (d : Directory) (args : Arguments) (file : String)
    (piece : String × String) : Prop :=
  ∃ source tree printed, d.read file = .ok source ∧
    parse source (.file file) settings.forFile = .ok tree ∧
    printedTree settings args.action tree = .ok printed ∧
    piece = (tree.packageName, printTree args.action args.symbol printed)

theorem renders_iff {file : String} {piece : String × String} :
    Renders settings d args file piece ↔
      ∃ tree, readSource settings d file = .ok tree ∧ render settings args tree = .ok piece.2 ∧
        tree.packageName = piece.1 := by
  have reads : ∀ tree, readSource settings d file = .ok tree ↔
      ∃ source, d.read file = .ok source ∧
        parse source (.file file) settings.forFile = .ok tree := by
    intro tree
    rw [readSource, except_bind_eq_ok]
    simp only [mapError_eq_ok]
  constructor
  · rintro ⟨source, tree, printed, read, parsed, done, rfl⟩
    exact ⟨tree, (reads tree).mpr ⟨source, read, parsed⟩,
      except_bind_eq_ok.mpr ⟨printed, done, rfl⟩, rfl⟩
  · rintro ⟨tree, loaded, rendered, package⟩
    obtain ⟨source, read, parsed⟩ := (reads tree).mp loaded
    obtain ⟨printed, done, text⟩ := except_bind_eq_ok.mp rendered
    exact ⟨source, tree, printed, read, parsed, done, Prod.ext package.symm (Except.ok.inj text).symm⟩

/-- **A file stops the run or has a piece**, whatever the other files are. -/
theorem fails_or_renders (settings : Settings) (d : Directory) (args : Arguments) (file : String) :
    Fails settings d args.action file ∨ ∃ piece, Renders settings d args file piece := by
  cases read : d.read file with
  | error failure => exact Or.inl (.unreadable read)
  | ok source =>
    cases parsed : parse source (.file file) settings.forFile with
    | error error => exact Or.inl (.malformed read parsed)
    | ok tree =>
      cases printed : printedTree settings args.action tree with
      | ok printed' => exact Or.inr ⟨_, source, tree, printed', read, parsed, printed, rfl⟩
      | error failure =>
        cases action : args.action with
        | expansion =>
          rw [action] at printed
          exact Or.inl (.unexpandable rfl read parsed printed)
        | text =>
          rw [action] at printed
          cases printed
        | outline =>
          rw [action] at printed
          cases printed

theorem not_renders_of_fails {file : String} (fails : Fails settings d args.action file)
    (piece : String × String) : ¬Renders settings d args file piece := by
  rintro ⟨source, tree, printed, read, parsed, done, rfl⟩
  cases fails with
  | unreadable failed =>
    rw [read] at failed
    cases failed
  | malformed read' failed =>
    cases read.symm.trans read'
    rw [parsed] at failed
    cases failed
  | unexpandable action read' parsed' failed =>
    cases read.symm.trans read'
    cases parsed.symm.trans parsed'
    rw [action, printedTree, failed] at done
    cases done

/-- A file has the piece that comes of its text. -/
theorem renders_of_runs {file source : String} {piece : String × String}
    (read : d.read file = .ok source)
    (runs : (parse source (.file file) settings.forFile).toOption.any (fun tree => decide
      (tree.packageName = piece.1 ∧ (render settings args tree).toOption = some piece.2)) = true) :
    Renders settings d args file piece := by
  obtain ⟨tree, parsed, prints⟩ := exists_of_any runs
  obtain ⟨package, prints⟩ := of_decide_eq_true prints
  have loaded : readSource settings d file = .ok tree :=
    except_bind_eq_ok.mpr ⟨source, mapError_eq_ok.mpr read, mapError_eq_ok.mpr parsed⟩
  cases rendered : render settings args tree with
  | error failure =>
    rw [rendered] at prints
    cases prints
  | ok text =>
    rw [rendered] at prints
    exact renders_iff.mpr ⟨tree, loaded, rendered.trans (congrArg _ (Option.some.inj prints)), package⟩

/-- A file has one piece. -/
theorem renders_unique {files : List String} {pieces others : List (String × String)}
    (each : List.Forall₂ (Renders settings d args) files pieces)
    (again : List.Forall₂ (Renders settings d args) files others) : pieces = others := by
  have one : Relator.RightUnique (Renders settings d args) := by
    intro file piece other renders renders'
    obtain ⟨tree, read, printed, package⟩ := renders_iff.mp renders
    obtain ⟨tree', read', printed', package'⟩ := renders_iff.mp renders'
    obtain rfl : tree = tree' := Except.ok.inj (read.symm.trans read')
    exact Prod.ext (package.symm.trans package') (Except.ok.inj (printed.symm.trans printed'))
  exact List.right_unique_forall₂' one each again

/-! ### The output -/

theorem readSources_eq_ok_iff {files : List String} {packages : Packages} :
    readSources settings d files = .ok packages ↔
      ∃ trees, List.Forall₂ (fun file tree => readSource settings d file = .ok tree) files trees ∧
        trees.foldl Packages.add {} = packages :=
  foldlM_taking_eq_ok_iff

/-- What is printed for a source that can be printed. -/
def textOf (settings : Settings) (args : Arguments) (tree : Tree) : String :=
  (render settings args tree).toOption.getD ""

theorem textOf_of_render {tree : Tree} {text : String}
    (rendered : render settings args tree = .ok text) : textOf settings args tree = text := by
  rw [textOf, rendered]
  rfl

theorem outputOf_eq_ok_iff_trees {userConfig out : String}
    (loaded : loadSettings d args.config userConfig = .ok settings) :
    outputOf d userConfig args = .ok out ↔
      ∃ trees, List.Forall₂ (fun file tree => readSource settings d file = .ok tree)
          args.files trees ∧
        ∃ texts, List.Forall₂ (fun tree text => render settings args tree = .ok text)
            (grouped Tree.packageName trees) texts ∧ String.join texts = out := by
  have settled : (loadSettings d args.config userConfig).mapError Failure.file = .ok settings :=
    mapError_eq_ok.mpr loaded
  have made : outputOf d userConfig args = readSources settings d args.files >>= fun packages =>
      String.join <$> packages.trees.mapM (render settings args) := by
    rw [outputOf, settled]
    rfl
  rw [made]
  constructor
  · intro made
    obtain ⟨packages, read, printed⟩ := except_bind_eq_ok.mp made
    obtain ⟨trees, each, rfl⟩ := readSources_eq_ok_iff.mp read
    obtain ⟨texts, rendered, joined⟩ := except_map_eq_ok.mp printed
    rw [Packages.trees_filed] at rendered
    exact ⟨trees, each, texts, mapM_eq_ok_iff.mp rendered, joined⟩
  · rintro ⟨trees, each, texts, rendered, rfl⟩
    refine except_bind_eq_ok.mpr ⟨_, readSources_eq_ok_iff.mpr ⟨trees, each, rfl⟩, ?_⟩
    refine except_map_eq_ok.mpr ⟨texts, ?_, rfl⟩
    rw [Packages.trees_filed]
    exact mapM_eq_ok_iff.mpr rendered

/-- **There is output just when every file has a piece**, and it is the pieces, grouped by
package. -/
theorem outputOf_eq_ok_iff {userConfig out : String}
    (loaded : loadSettings d args.config userConfig = .ok settings) :
    outputOf d userConfig args = .ok out ↔
      ∃ pieces, List.Forall₂ (Renders settings d args) args.files pieces ∧
        String.join ((grouped Prod.fst pieces).map Prod.snd) = out := by
  -- the pieces of the files and the texts of the grouped trees are the same function of the trees
  let piece (tree : Tree) : String × String := (tree.packageName, textOf settings args tree)
  let Prints (tree : Tree) (piece : String × String) : Prop :=
    render settings args tree = .ok piece.2 ∧ tree.packageName = piece.1
  have pieces_eq : ∀ {trees pieces}, List.Forall₂ Prints trees pieces → pieces = trees.map piece :=
    fun each => eq_map_of_forall₂ each fun tree printed ⟨rendered, package⟩ =>
      Prod.ext package (textOf_of_render rendered)
  have texts_eq : ∀ {trees texts}, List.Forall₂ (fun tree text => render settings args tree = .ok text)
      (grouped Tree.packageName trees) texts →
        texts = (grouped Prod.fst (trees.map piece)).map Prod.snd := by
    intro trees texts each
    rw [grouped_map, List.map_map]
    exact eq_map_of_forall₂ each fun tree text rendered => textOf_of_render rendered
  have renders : ∀ pieces, List.Forall₂ (Renders settings d args) args.files pieces ↔
      ∃ trees, List.Forall₂ (fun file tree => readSource settings d file = .ok tree)
        args.files trees ∧ List.Forall₂ Prints trees pieces := by
    intro pieces
    rw [← forall₂_comp_iff]
    simp only [← renders_iff, Prints]
  rw [outputOf_eq_ok_iff_trees loaded]
  constructor
  · rintro ⟨trees, read, texts, rendered, rfl⟩
    have prints : ∀ tree ∈ trees, ∃ printed, Prints tree printed := by
      intro tree member
      obtain ⟨text, one⟩ := exists_of_forall₂ rendered (mem_grouped.mpr member)
      exact ⟨(_, text), one, rfl⟩
    obtain ⟨pieces, each⟩ := exists_forall₂ prints
    refine ⟨pieces, (renders pieces).mpr ⟨trees, read, each⟩, ?_⟩
    rw [pieces_eq each, texts_eq rendered]
  · rintro ⟨pieces, each, rfl⟩
    obtain ⟨trees, read, printed⟩ := (renders pieces).mp each
    have prints : ∀ tree ∈ grouped Tree.packageName trees,
        ∃ text, render settings args tree = .ok text := by
      intro tree member
      obtain ⟨_, rendered, -⟩ := exists_of_forall₂ printed (mem_grouped.mp member)
      exact ⟨_, rendered⟩
    obtain ⟨texts, rendered⟩ := exists_forall₂ prints
    refine ⟨trees, read, texts, rendered, ?_⟩
    rw [pieces_eq printed, texts_eq rendered]

/-- **A run with an output file writes all of its output or nothing.** -/
theorem run_writes_all_or_nothing (d : Directory) (userConfig : String) (args : Arguments)
    {path : String} (output : args.output = some path) :
    (∀ failure, loadSettings d args.config userConfig = .error failure →
      run d userConfig args = { directory := d, failure := some (.file failure) }) ∧
    ∀ settings, loadSettings d args.config userConfig = .ok settings →
      ((∃ file ∈ args.files, Fails settings d args.action file) →
        ∃ failure, run d userConfig args = { directory := d, failure := some failure }) ∧
      ((∀ file ∈ args.files, ¬Fails settings d args.action file) →
        ∃ pieces, List.Forall₂ (Renders settings d args) args.files pieces ∧
          (grouped Prod.fst pieces).Perm pieces ∧
          (∀ place, d.target? path = some place →
            ∃ written, run d userConfig args = { directory := written } ∧
              ∀ other, written.content? other =
                if other = place then
                  some (String.join ((grouped Prod.fst pieces).map Prod.snd)).toUTF8
                else d.content? other) ∧
          (d.target? path = none →
            ∃ failure, run d userConfig args = { directory := d, failure := some failure })) := by
  refine ⟨fun failure broken => ?_, fun settings loaded => ⟨?_, ?_⟩⟩
  · have stopped : outputOf d userConfig args = .error (.file failure) := by
      rw [outputOf, broken]
      rfl
    rw [run, stopped]
  · rintro ⟨file, member, fails⟩
    cases made : outputOf d userConfig args with
    | error failure => exact ⟨failure, by rw [run, made]⟩
    | ok out =>
      obtain ⟨pieces, each, -⟩ := (outputOf_eq_ok_iff loaded).mp made
      obtain ⟨piece, renders⟩ := exists_of_forall₂ each member
      exact absurd renders (not_renders_of_fails fails piece)
  · intro fine
    obtain ⟨pieces, each⟩ := exists_forall₂ fun file member =>
      (fails_or_renders settings d args file).resolve_left (fine file member)
    have made := (outputOf_eq_ok_iff loaded).mpr ⟨pieces, each, rfl⟩
    refine ⟨pieces, each, grouped_perm _ _, fun place target => ?_, fun none => ?_⟩
    · refine ⟨_, ?_, fun other => Directory.content?_store d place _ other⟩
      simp only [run, made, output, Directory.write_of_target target]
    · obtain ⟨failure, refused⟩ := Directory.write_of_no_target none
        (String.join ((grouped Prod.fst pieces).map Prod.snd))
      exact ⟨.file failure, by simp only [run, made, output, refused]⟩

/-- A directory with sources of two packages, an empty configuration and an old output. -/
def shelf : Directory :=
  ⟨[(["a"], "package p\n".toUTF8), (["b"], "package q\n".toUTF8),
    (["d"], "package p\n// more\n".toUTF8), (["c"], "".toUTF8), (["out"], "old".toUTF8)]⟩

/-- Sources of two packages that are named in turn are written package by package. With the name of no
file in between nothing is written. -/
theorem run_writes_all_or_nothing_packages :
    let whole : Arguments :=
      { action := .text, files := ["a", "b", "d"], output := some "out", config := some "c" }
    let broken : Arguments :=
      { action := .text, files := ["a", "e", "d"], output := some "out", config := some "c" }
    (loadSettings shelf (some "c") "user" = .ok {} ∧ shelf.target? "out" = some ["out"]) ∧
    ((∀ file ∈ whole.files, ¬Fails {} shelf .text file) ∧
      ∃ written, run shelf "user" whole = { directory := written } ∧
        written.content? ["out"] =
          some ("package p\n" ++ "package p\n// more\n" ++ "package q\n").toUTF8 ∧
        written.content? ["a"] = shelf.content? ["a"]) ∧
    ((∃ file ∈ broken.files, Fails {} shelf .text file) ∧
      ∃ failure, run shelf "user" broken = { directory := shelf, failure := some failure }) := by
  intro whole broken
  have loaded : loadSettings shelf (some "c") "user" = .ok {} := by
    have empty : shelf.read "c" = .ok "" :=
      Directory.read_of_resolve (by cbv : shelf.resolve "c" = .ok (.file ["c"])) (by decide +kernel)
    have none : Settings.ofToml "" = .ok {} := by decide +kernel
    show readSettings shelf "c" = .ok {}
    rw [readSettings, empty]
    simp only [none]
    rfl
  have target : shelf.target? "out" = some ["out"] := by
    have here : shelf.resolve "out" = .ok (.file ["out"]) := by cbv
    rw [Directory.target?, here]
  have renders_a : Renders {} shelf whole "a" ("p", "package p\n") := by
    have source : shelf.read "a" = .ok "package p\n" :=
      Directory.read_of_resolve (by cbv : shelf.resolve "a" = .ok (.file ["a"])) (by decide +kernel)
    exact renders_of_runs source (by decide +kernel)
  have renders_b : Renders {} shelf whole "b" ("q", "package q\n") := by
    have source : shelf.read "b" = .ok "package q\n" :=
      Directory.read_of_resolve (by cbv : shelf.resolve "b" = .ok (.file ["b"])) (by decide +kernel)
    exact renders_of_runs source (by decide +kernel)
  have renders_d : Renders {} shelf whole "d" ("p", "package p\n// more\n") := by
    have source : shelf.read "d" = .ok "package p\n// more\n" :=
      Directory.read_of_resolve (by cbv : shelf.resolve "d" = .ok (.file ["d"])) (by decide +kernel)
    exact renders_of_runs source (by decide +kernel)
  have all : List.Forall₂ (Renders {} shelf whole) whole.files
      [("p", "package p\n"), ("q", "package q\n"), ("p", "package p\n// more\n")] :=
    .cons renders_a (.cons renders_b (.cons renders_d .nil))
  have fine : ∀ file ∈ whole.files, ¬Fails {} shelf .text file := by
    intro file member fails
    obtain ⟨piece, renders⟩ := exists_of_forall₂ all member
    exact not_renders_of_fails fails piece renders
  have missing : ∃ file ∈ broken.files, Fails {} shelf .text file := by
    have nowhere : shelf.resolve "e" = .ok (.absent ["e"]) := by cbv
    have absent : shelf.read "e" = .error .missing := by
      rw [Directory.read, nowhere]
      rfl
    exact ⟨"e", by simp [broken], .unreadable absent⟩
  have nothing := ((run_writes_all_or_nothing shelf "user" broken rfl).2 {} loaded).1 missing
  obtain ⟨pieces, each, -, write, -⟩ :=
    ((run_writes_all_or_nothing shelf "user" whole rfl).2 {} loaded).2 fine
  obtain rfl := renders_unique each all
  obtain ⟨written, ran, content⟩ := write ["out"] target
  exact ⟨⟨loaded, target⟩, ⟨fine, written, ran, content ["out"], content ["a"]⟩, missing, nothing⟩

end Command

end TypeLoom
