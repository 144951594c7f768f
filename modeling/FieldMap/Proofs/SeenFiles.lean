import FieldMap.Proofs.FileMachines
import FieldMap.Proofs.Outcome

/-!
# Schema files as they are seen

Which structs are loaded from schema files depends only on what can be seen of files, not on the
machine that reads them.

* `FileView` is what can be seen of files, and `FileView.schemaPaths` the paths that are read: those
  of the files that are meant, each of them once.
* `ReadingMachine` states what is relied on: files stay as they are while they are looked at, and a
  path or a file is told from what can be seen of it.
* `run_loadSchemasFrom` leaves the machine behind.  What remains is a fold over the paths, one
  `FileView.addFile` for each.
-/

namespace FieldMap

/-! ## What can be seen of files -/

/-- What can be seen of files: where there is something, and what reading a file comes to. -/
structure FileView where
  isPresent : Path → Bool
  read : Path → Except OsError (List UInt8)

/-- A machine on which files stay as they are while they are looked at. -/
class ReadingMachine (σ : Type) [FileSystem (StateM σ)] [Reporting (StateM σ)] where
  /-- What can be seen of the files of the machine. -/
  view : σ → FileView
  isPresent_sees (path : Path) (s : σ) :
    ((FileSystem.isPresent path : StateM σ Bool) s).1 = (view s).isPresent path
  isPresent_keeps (path : Path) (s : σ) :
    view ((FileSystem.isPresent path : StateM σ Bool) s).2 = view s
  read_sees (path : Path) (s : σ) :
    ((FileSystem.read path : ExceptT OsError (StateM σ) (List UInt8)).run s).1 =
      (view s).read path
  read_keeps (path : Path) (s : σ) :
    view ((FileSystem.read path : ExceptT OsError (StateM σ) (List UInt8)).run s).2 = view s
  report_keeps (events : List Event) (s : σ) :
    view ((Reporting.report events : StateM σ Unit) s).2 = view s

/-- What can be seen of a file tree. -/
def FileTree.view (tree : FileTree) : FileView :=
  ⟨tree.isPresent, tree.read⟩

instance : ReadingMachine World where
  view world := world.tree.view
  isPresent_sees _ _ := rfl
  isPresent_keeps _ _ := rfl
  read_sees _ _ := rfl
  read_keeps _ _ := rfl
  report_keeps _ _ := rfl

instance : ReadingMachine FaultyWorld where
  view s := s.world.tree.view
  isPresent_sees _ _ := rfl
  isPresent_keeps _ _ := rfl
  read_sees _ _ := rfl
  read_keeps _ _ := rfl
  report_keeps _ _ := rfl

/-- The paths in order, without those that are the same as one before them, or as one of those
that have been seen. -/
def Path.unseen (seen : List Path) : List Path → List Path
  | [] => []
  | path :: paths =>
    if seen.any path.isSame then unseen seen paths else path :: unseen (path :: seen) paths

theorem Path.eraseDupsBy_isSame (paths : List Path) :
    paths.eraseDupsBy Path.isSame = unseen [] paths := by
  have hloop (paths seen : List Path) :
      List.eraseDupsBy.loop Path.isSame paths seen = seen.reverse ++ unseen seen paths := by
    induction paths generalizing seen with
    | nil => exact (List.append_nil _).symm
    | cons path paths ih =>
        rw [List.eraseDupsBy.loop, unseen]
        cases seen.any path.isSame with
        | true => exact ih seen
        | false =>
            show List.eraseDupsBy.loop Path.isSame paths (path :: seen) = _
            rw [ih (path :: seen)]
            simp
  exact hloop paths []

namespace FileView

/-- The text of a file. -/
def text (view : FileView) (path : Path) : Except TextError String :=
  match view.read path with
  | .error e => .error (.os e)
  | .ok bytes =>
    match Text.Utf8.decode bytes with
    | .ok text => .ok text
    | .error _ => .error .notUtf8

/-- The structs of one schema file. -/
def schema (view : FileView) (path : Path) : Except LoadError (List Struct) := do
  let source ← (view.text path).mapError (LoadError.io path)
  (Schema.parse source path.text).result.mapError LoadError.parse

theorem schema_of_text_error {view : FileView} {path : Path} {e : TextError}
    (h : view.text path = .error e) : view.schema path = .error (.io path e) := by
  rw [schema, h]
  rfl

theorem schema_of_text_ok {view : FileView} {path : Path} {source : String}
    (h : view.text path = .ok source) :
    view.schema path = (Schema.parse source path.text).result.mapError LoadError.parse := by
  rw [schema, h]
  rfl

/-- Structs of a schema file come from a text that can be parsed. -/
theorem exists_parse_of_schema {view : FileView} {path : Path} {structs : List Struct}
    (h : view.schema path = .ok structs) :
    ∃ source, view.text path = .ok source ∧
      (Schema.parse source path.text).result = .ok structs := by
  cases hsource : view.text path with
  | error e =>
      rw [schema_of_text_error hsource] at h
      cases h
  | ok source =>
      rw [schema_of_text_ok hsource] at h
      cases hparse : (Schema.parse source path.text).result with
      | error e =>
          rw [hparse] at h
          cases h
      | ok parsed =>
          rw [hparse] at h
          cases h
          exact ⟨source, rfl, hparse⟩

theorem exists_read_of_text {view : FileView} {path : Path} {source : String}
    (h : view.text path = .ok source) : ∃ bytes, view.read path = .ok bytes := by
  unfold text at h
  cases hread : view.read path with
  | ok bytes => exact ⟨bytes, rfl⟩
  | error e =>
      rw [hread] at h
      cases h

theorem exists_read_of_schema {view : FileView} {path : Path} {structs : List Struct}
    (h : view.schema path = .ok structs) : ∃ bytes, view.read path = .ok bytes := by
  obtain ⟨source, hsource, -⟩ := exists_parse_of_schema h
  exact exists_read_of_text hsource

/-- The path of the schema that is meant: as given, or with the extension of schemas where nothing
is there and it is missing. -/
def schemaPath (view : FileView) (path : Path) : Path :=
  if view.isPresent path then path
  else if path.extension? = some schemaExtension then path
  else ⟨path.text ++ "." ++ schemaExtension⟩

/-- The paths of the schemas that are meant, in order, without later repeats. -/
def schemaPaths (view : FileView) (paths : List Path) : List Path :=
  (paths.map view.schemaPath).eraseDupsBy Path.isSame

/-- The structs of one more file behind those that are known. -/
def addFile (view : FileView) (known : List (Struct × Path)) (path : Path) :
    Except LoadError (List (Struct × Path)) := do
  let structs ← view.schema path
  addStructs path known structs

end FileView

/-! ## Machines -/

section
variable {σ : Type} [FileSystem (StateM σ)] [Reporting (StateM σ)] [ReadingMachine σ]

open ReadingMachine

theorem run_resolveSchemaPath (path : Path) (s : σ) :
    ∃ next, (ExceptT.lift (resolveSchemaPath path) : ExceptT LoadError (StateM σ) Path).run s =
      (.ok ((view s).schemaPath path), next) ∧ view next = view s := by
  have hseen := isPresent_sees path s
  have hkeeps := isPresent_keeps path s
  rcases hpresent : (FileSystem.isPresent path : StateM σ Bool) s with ⟨present, next⟩
  rw [hpresent] at hseen hkeeps
  refine ⟨next, ?_, hkeeps⟩
  rw [run_lift, resolveSchemaPath, bind_of_eq hpresent, FileView.schemaPath, ← hseen]
  cases present with
  | true => rfl
  | false =>
      by_cases hextension : path.extension? = some schemaExtension
      · simp only [hextension]
        rfl
      · simp only [hextension]
        rfl

theorem run_readText (path : Path) (s : σ) :
    ∃ next, (readText path : ExceptT TextError (StateM σ) String).run s =
      ((view s).text path, next) ∧ view next = view s := by
  have hseen := read_sees path s
  have hkeeps := read_keeps path s
  rcases hread : (FileSystem.read path : ExceptT OsError (StateM σ) (List UInt8)).run s with
    ⟨outcome, next⟩
  rw [hread] at hseen hkeeps
  refine ⟨next, ?_, hkeeps⟩
  rw [FileView.text, ← hseen]
  cases outcome with
  | error e =>
      rw [readText, run_bind_of_error (run_adapt_eq_error_iff.mpr ⟨e, hread, rfl⟩)]
  | ok bytes =>
      rw [readText, run_bind_of_ok (run_adapt_of_ok _ hread)]
      dsimp only
      cases Text.Utf8.decode bytes with
      | ok text => rfl
      | error e => rfl

/-- Reading one schema file fails as it can be seen to fail, or goes on with the structs that can be
seen in it. -/
theorem run_readSchema (path : Path) (s : σ)
    (rest : List Struct → ExceptT LoadError (StateM σ) (List Struct)) :
    ∃ next, view next = view s ∧
      (do
        let source ← ExceptT.adapt (LoadError.io path) (readText path)
        let structs ← ExceptT.adapt LoadError.parse (perform (Schema.parse source path.text))
        rest structs : ExceptT LoadError (StateM σ) (List Struct)).run s =
      match (view s).schema path with
      | .error e => (.error e, next)
      | .ok structs => (rest structs).run next := by
  obtain ⟨next, htext, hkeeps⟩ := run_readText path s
  cases hsource : (view s).text path with
  | error e =>
      rw [hsource] at htext
      refine ⟨next, hkeeps, ?_⟩
      rw [FileView.schema_of_text_error hsource,
        run_bind_of_error (run_adapt_eq_error_iff.mpr ⟨e, htext, rfl⟩)]
  | ok source =>
      rw [hsource] at htext
      have hparse := run_perform (ε := ParseError) (Schema.parse source path.text) next
      refine ⟨_, (report_keeps (Schema.parse source path.text).events next).trans hkeeps, ?_⟩
      rw [FileView.schema_of_text_ok hsource, run_bind_of_ok (run_adapt_of_ok _ htext)]
      cases hstructs : (Schema.parse source path.text).result with
      | error e =>
          rw [hstructs] at hparse
          rw [run_bind_of_error (run_adapt_eq_error_iff.mpr ⟨e, hparse, rfl⟩)]
          rfl
      | ok structs =>
          rw [hstructs] at hparse
          rw [run_bind_of_ok (run_adapt_of_ok _ hparse)]
          rfl

/-- What the files come to is found without the machine. -/
theorem run_loadSchemasFrom (seen : List Path) (known : List (Struct × Path)) (paths : List Path)
    (s : σ) :
    ((loadSchemasFrom seen known paths : ExceptT LoadError (StateM σ) (List Struct)).run s).1 =
      ((Path.unseen seen (paths.map (view s).schemaPath)).foldlM (view s).addFile known).map
        fun known => (known.map Prod.fst).reverse := by
  -- Whatever a step does to the machine, what can be seen of the files stays the same.
  induction paths generalizing seen known s with
  | nil => rfl
  | cons given paths ih =>
      obtain ⟨resolved, hpath, hresolved⟩ := run_resolveSchemaPath given s
      rw [loadSchemasFrom, run_bind_of_ok hpath, List.map_cons, Path.unseen]
      generalize (view s).schemaPath given = path
      cases seen.any path.isSame with
      | true =>
          simp only [if_true]
          rw [run_bind_of_ok (run_lift _ _), ih, report_keeps, hresolved]
      | false =>
          simp only [Bool.false_eq_true, if_false, List.foldlM_cons]
          obtain ⟨next, hnext, hrun⟩ := run_readSchema path resolved _
          rw [hrun, hresolved, FileView.addFile]
          rw [hresolved] at hnext
          cases (view s).schema path with
          | error e => rfl
          | ok structs =>
              dsimp only
              rw [run_bind_of_ok (run_lift _ _), ok_bind]
              cases addStructs path known structs with
              | error e => rfl
              | ok added =>
                  rw [run_bind_of_ok (run_mk_pure_eq_ok_iff.mpr ⟨rfl, rfl⟩), ih, report_keeps,
                    hnext]
                  rfl

end

end FieldMap
