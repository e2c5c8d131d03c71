import Mathlib.Data.List.Forall2
import ProjectClient.Proofs.Text.Split
import ProjectClient.Proofs.Timestamp.Digits
import ProjectClient.Screen.Terminal

/-! The list of projects on a terminal. Each line tells of one thing in the snapshot, and the lines
of a table stand in the order of the snapshot. A value that fits its column begins or ends where the
column does. -/
namespace ProjectClient

open Text (IsUnbroken)

/-! ## What the lines tell -/

namespace Project

def values (project : Project) : List (List Char) :=
  [project.id.toList, project.name.toList, (Timestamp.shown project.updatedAt).toList,
    Nat.toDigits 10 project.branches.length,
    Nat.toDigits 10 (project.branches.foldr (fun branch sum => branch.steps.length + sum) 0)]

def cells (project : Project) : List (List Char) :=
  List.zipWith (fun fill value => fill ' ' value)
    [List.rightpad 34, List.rightpad 24, List.rightpad 17, List.leftpad 8, List.leftpad 6]
    project.values

def Fits (project : Project) : Prop :=
  List.Forall₂ (fun width value => value.length ≤ width) [34, 24, 17, 8, 6] project.values

structure IsUnbroken (project : Project) : Prop where
  id : Text.IsUnbroken project.id
  name : Text.IsUnbroken project.name
  updatedAt : ∀ text ∈ project.updatedAt, Text.IsUnbroken text
  branches : ∀ branch ∈ project.branches, Text.IsUnbroken branch.name
  steps : ∀ branch ∈ project.branches, ∀ step ∈ branch.steps, Text.IsUnbroken step.name

end Project

inductive ListLine where
  | header
  | rule
  | project (shown : Project)
  | branch (shown : Branch)
  | step (shown : Step)

namespace ListLine

def isStep : ListLine → Bool
  | step _ => true
  | _ => false

def text : ListLine → String
  | header =>
    "ID                                 NAME                     UPDATED           BRANCHES  STEPS"
  | rule =>
    "---------------------------------- ------------------------ ----------------- -------- ------"
  | project shown => String.ofList ([' '].intercalate shown.cells)
  | branch shown =>
    match shown.steps.getLast? with
    | some last => s!"    {shown.name} (latest: {last.name})"
    | none => s!"    {shown.name} (no steps)"
  | step shown =>
    let ordinal := String.ofList ((toString shown.ordinal.toInt).toList.rightpad 4 ' ')
    s!"      #{ordinal} {shown.name}"

def values : ListLine → List (List Char)
  | header | rule => []
  | project shown => shown.values
  | branch shown => shown.name.toList :: shown.steps.getLast?.toList.map (·.name.toList)
  | step shown => [(toString shown.ordinal.toInt).toList, shown.name.toList]

def ofBranch (shown : Branch) : List ListLine :=
  .branch shown :: shown.steps.map .step

def ofProject (shown : Project) : List ListLine :=
  .project shown :: shown.branches.flatMap ofBranch

/-- The header and the rule, and then for each project its row, and below it for each of its
branches one line and one for each step. -/
def ofProjects (projects : List Project) : List ListLine :=
  .header :: .rule :: projects.flatMap ofProject

end ListLine

/-! ## Columns -/

namespace Text

variable {filling : Char} {width : Nat} {text : String}

theorem toList_atLeft : (atLeft filling width text).toList = text.toList.rightpad width filling := by
  simp [atLeft, filler, List.rightpad, String.length_toList]

theorem toList_atRight : (atRight filling width text).toList = text.toList.leftpad width filling := by
  simp [atRight, filler, List.leftpad, String.length_toList]

end Text

theorem intercalate_cons (cell : List Char) (cells : List (List Char)) :
    [' '].intercalate (cell :: cells) = cell ++ cells.flatMap (' ' :: ·) := by
  induction cells generalizing cell with
  | nil => simp
  | cons next cells ih =>
    rw [List.intercalate_cons_cons, ih, List.flatMap_cons, List.append_assoc]
    rfl

theorem Project.stepCount_eq (project : Project) : project.stepCount =
    project.branches.foldr (fun branch sum => branch.steps.length + sum) 0 := by
  unfold stepCount
  induction project.branches with
  | nil => rfl
  | cons branch branches ih => rw [List.flatMap_cons, List.length_append, ih, List.foldr_cons]

theorem toList_tableLine (id name updated branches steps : String) :
    (tableLine ' ' id name updated branches steps).toList = [' '].intercalate
      [id.toList.rightpad 34 ' ', name.toList.rightpad 24 ' ', updated.toList.rightpad 17 ' ',
        branches.toList.leftpad 8 ' ', steps.toList.leftpad 6 ' '] := by
  rw [tableLine, String.toList_intercalate]
  simp only [List.map_cons, List.map_nil, Text.toList_atLeft, Text.toList_atRight]
  rfl

theorem Project.line_view (project : Project) :
    project.view.line = (ListLine.project project).text := by
  have digits (n : Nat) : (toString n).toList = Nat.toDigits 10 n := String.toList_ofList
  apply String.toList_inj.1
  rw [RowView.line, toList_tableLine, digits, digits, ListLine.text, String.toList_ofList]
  simp only [view, stepCount_eq]
  rfl

theorem Branch.line_view (branch : Branch) :
    branch.view.line = (ListLine.branch branch).text := by
  rw [BranchView.line, ListLine.text]
  simp only [view, latestStep?]
  cases branch.steps.getLast? <;> rfl

theorem Step.line_eq (step : Step) : step.line = (ListLine.step step).text := by
  have ordinal : Text.atLeft ' ' 4 (toString step.ordinal) =
      String.ofList ((toString step.ordinal.toInt).toList.rightpad 4 ' ') := by
    rw [← Text.toList_atLeft, String.ofList_toList]
    rfl
  rw [line, ListLine.text, ordinal]

/-! ## The lines of the list -/

theorem Branch.lines_view (withSteps : Bool) (branch : Branch) : branch.view.lines withSteps =
    ((ListLine.ofBranch branch).filter fun line => withSteps || !line.isStep).map ListLine.text := by
  have steps : branch.view.steps = branch.steps := rfl
  rw [BranchView.lines, line_view, ListLine.ofBranch]
  cases withSteps with
  | true => simp [steps, Function.comp_def, Step.line_eq]
  | false => simp [ListLine.isStep, List.filter_map, Function.comp_def]

theorem Project.lines_view (withSteps : Bool) (project : Project) : project.view.lines withSteps =
    ((ListLine.ofProject project).filter fun line => withSteps || !line.isStep).map
      ListLine.text := by
  rw [RowView.lines, line_view, ListLine.ofProject]
  simp [ListLine.isStep, view, List.flatMap_map, Branch.lines_view, List.filter_flatMap,
    List.map_flatMap]

theorem lines_ofProjects (withSteps : Bool) {projects : List Project} (some : projects ≠ []) :
    (ListView.ofProjects projects).lines withSteps =
      ((ListLine.ofProjects projects).filter fun line => withSteps || !line.isStep).map
        ListLine.text := by
  have header : headerLine = ListLine.header.text := by decide +kernel
  have rule : ruleLine = ListLine.rule.text := by decide +kernel
  cases projects with
  | nil => exact absurd rfl some
  | cons project projects =>
    rw [ListView.ofProjects, ListView.lines, header, rule, ListLine.ofProjects]
    · simp [ListLine.isStep, List.flatMap_map, Project.lines_view, List.filter_flatMap,
        List.map_flatMap]
    · nofun

/-! ## No line is broken -/

theorem not_mem_toDigits (n : Nat) : '\n' ∉ Nat.toDigits 10 n := by
  intro among
  obtain ⟨d, small, same⟩ := Url.mem_toDigits (by decide) among
  exact absurd (same ▸ (Timestamp.digitChar_spec small).1) (by decide)

theorem Timestamp.isUnbroken_padded {width n : Nat} : IsUnbroken (padded width n) :=
  fun among => absurd (isDigit_padded _ among) (by decide)

theorem Timestamp.isUnbroken_yearText (year : Int) : IsUnbroken (yearText year) := by
  unfold yearText
  split
  · exact isUnbroken_padded
  · refine Text.isUnbroken_append.2 ⟨?_, isUnbroken_padded⟩
    split <;> decide

theorem Timestamp.Minute.isUnbroken_text (minute : Minute) : IsUnbroken minute.text := by
  have plain (text : String) : toString text = text := rfl
  unfold text
  simp [plain, isUnbroken_padded, isUnbroken_yearText]
  decide

theorem Timestamp.isUnbroken_shown {text? : Option String}
    (unbroken : ∀ text ∈ text?, IsUnbroken text) : IsUnbroken (shown text?) := by
  cases text? with
  | none => decide
  | some text =>
    rw [shown]
    cases parse? text with
    | none => exact unbroken text rfl
    | some minute => exact minute.isUnbroken_text

theorem Project.not_mem_values {project : Project} (unbroken : project.IsUnbroken) :
    ∀ value ∈ project.values, '\n' ∉ value := by
  simp only [values, List.forall_mem_cons]
  exact ⟨unbroken.id, unbroken.name, Timestamp.isUnbroken_shown unbroken.updatedAt,
    not_mem_toDigits _, not_mem_toDigits _, nofun⟩

theorem not_mem_intercalate {cells : List (List Char)} (unbroken : ∀ cell ∈ cells, '\n' ∉ cell) :
    '\n' ∉ [' '].intercalate cells := by
  cases cells with
  | nil => nofun
  | cons cell cells =>
    rw [List.forall_mem_cons] at unbroken
    simpa [intercalate_cons, unbroken.1] using unbroken.2

theorem ListLine.isUnbroken_project {project : Project} (unbroken : project.IsUnbroken) :
    IsUnbroken (ListLine.project project).text := by
  have values := project.not_mem_values unbroken
  rw [IsUnbroken, text, String.toList_ofList]
  refine not_mem_intercalate ?_
  simp only [Project.values, Project.cells, List.zipWith_cons_cons, List.zipWith_nil_left,
    List.forall_mem_cons, List.rightpad, List.leftpad, List.mem_append] at values ⊢
  simp [values]

theorem isUnbroken_ordinal (n : Int) :
    IsUnbroken (String.ofList ((toString n).toList.rightpad 4 ' ')) := by
  have text : toString n = n.repr := rfl
  rw [IsUnbroken, String.toList_ofList, List.rightpad, text, Int.repr_eq_if]
  split <;> simp [not_mem_toDigits]

theorem ListLine.isUnbroken_branch {branch : Branch} (own : IsUnbroken branch.name)
    (steps : ∀ step ∈ branch.steps, IsUnbroken step.name) :
    IsUnbroken (ListLine.branch branch).text := by
  have plain (text : String) : toString text = text := rfl
  rw [text]
  cases last : branch.steps.getLast? with
  | none =>
    simp [plain, own]
    decide
  | some step =>
    simp [plain, own, steps step (List.mem_of_getLast? last)]
    decide

theorem ListLine.isUnbroken_step {step : Step} (own : IsUnbroken step.name) :
    IsUnbroken (ListLine.step step).text := by
  have plain (text : String) : toString text = text := rfl
  rw [text]
  simp only [plain, Text.isUnbroken_append]
  exact ⟨⟨⟨by decide, isUnbroken_ordinal _⟩, by decide⟩, own⟩

theorem ListLine.isUnbroken_text {projects : List Project}
    (unbroken : ∀ project ∈ projects, project.IsUnbroken) :
    ∀ line ∈ ofProjects projects, IsUnbroken line.text := by
  simp only [ofProjects, ofProject, ofBranch, List.mem_flatMap, List.mem_cons, List.mem_map]
  rintro line (rfl | rfl | ⟨project, among, rfl | ⟨branch, own, rfl | ⟨step, listed, rfl⟩⟩⟩)
  · decide
  · decide
  · exact isUnbroken_project (unbroken project among)
  · exact isUnbroken_branch ((unbroken project among).branches branch own)
      ((unbroken project among).steps branch own)
  · exact isUnbroken_step ((unbroken project among).steps branch own step listed)

/-! ## Where the values are -/

theorem infix_intercalate {cell : List Char} {cells : List (List Char)} (listed : cell ∈ cells) :
    cell <:+: [' '].intercalate cells := by
  cases cells with
  | nil => exact absurd listed List.not_mem_nil
  | cons first cells =>
    rw [intercalate_cons]
    rcases List.mem_cons.1 listed with rfl | later
    · exact (List.prefix_append _ _).isInfix
    · have piece : ' ' :: cell <:+: cells.flatMap (' ' :: ·) :=
        List.infix_of_mem_flatten (List.mem_map_of_mem later)
      exact List.infix_append_of_infix_right ((List.suffix_cons ' ' cell).isInfix.trans piece)

theorem Project.values_infix (project : Project) :
    ∀ value ∈ project.values, value <:+: (ListLine.project project).text.toList := by
  have inside {value cell : List Char} (own : value <:+: cell) (listed : cell ∈ project.cells) :
      value <:+: (ListLine.project project).text.toList := by
    rw [ListLine.text, String.toList_ofList]
    exact own.trans (infix_intercalate listed)
  have atLeft (width : Nat) {value : List Char} : value <:+: value.rightpad width ' ' :=
    (List.prefix_append value _).isInfix
  have atRight (width : Nat) {value : List Char} : value <:+: value.leftpad width ' ' :=
    List.leftpad_suffix.isInfix
  simp only [values, List.forall_mem_cons]
  refine ⟨inside (atLeft 34) ?_, inside (atLeft 24) ?_, inside (atLeft 17) ?_,
    inside (atRight 8) ?_, inside (atRight 6) ?_, nofun⟩ <;> simp [cells, values]

theorem ListLine.values_infix (line : ListLine) :
    ∀ value ∈ line.values, value <:+: line.text.toList := by
  have plain (text : String) : toString text = text := rfl
  cases line with
  | header | rule => nofun
  | project shown => exact shown.values_infix
  | branch shown =>
    rw [values, text]
    cases shown.steps.getLast? with
    | none =>
      exact List.forall_mem_singleton.2 ⟨"    ".toList, " (no steps)".toList, by simp [plain]⟩
    | some last =>
      refine List.forall_mem_cons.2 ⟨?_, List.forall_mem_singleton.2 ?_⟩
      · exact ⟨"    ".toList, s!" (latest: {last.name})".toList, by simp [plain]⟩
      · exact ⟨s!"    {shown.name} (latest: ".toList, [')'], by simp [plain]⟩
  | step shown =>
    rw [values, text]
    let ordinal := (toString shown.ordinal.toInt).toList
    have padded : ordinal <:+: ordinal.rightpad 4 ' ' := (List.prefix_append _ _).isInfix
    refine List.forall_mem_cons.2 ⟨padded.trans ?_, List.forall_mem_singleton.2 ?_⟩
    · refine ⟨"      #".toList, s!" {shown.name}".toList, ?_⟩
      simp only [plain, String.toList_append, String.toList_ofList, List.append_assoc]
      rfl
    · simp only [plain, String.toList_append]
      exact (List.suffix_append _ _).isInfix

/-- Where cells of these widths start, with one character between each and the next. -/
def columnStarts (first : Nat) : List Nat → List Nat
  | [] => []
  | width :: widths => first :: columnStarts (first + width + 1) widths

theorem forall₂_columnStarts (front : List Char) (cells : List (List Char)) :
    List.Forall₂ (fun start cell =>
      ((front ++ [' '].intercalate cells).drop start).take cell.length = cell)
      (columnStarts front.length (cells.map List.length)) cells := by
  induction cells generalizing front with
  | nil => exact .nil
  | cons cell cells ih =>
    cases cells with
    | nil => exact .cons (by simp) .nil
    | cons next cells =>
      -- For the cells behind, this one and its space are in front.
      have rest := ih (front ++ (cell ++ [' ']))
      have width : (front ++ (cell ++ [' '])).length = front.length + cell.length + 1 := by
        simp [Nat.add_assoc]
      rw [width, List.append_assoc, ← List.intercalate_cons_cons] at rest
      refine .cons ?_ rest
      rw [List.intercalate_cons_cons, List.drop_left, List.append_assoc, List.take_left]

theorem Project.columns {project : Project} (fits : project.Fits) :
    (ListLine.project project).text.length = 93 ∧
    List.Forall₂ (fun start cell =>
      ((ListLine.project project).text.toList.drop start).take cell.length = cell)
      [0, 35, 60, 78, 87] project.cells := by
  have row : (ListLine.project project).text.toList = [' '].intercalate project.cells := by
    rw [ListLine.text, String.toList_ofList]
  simp only [Fits, values, List.forall₂_cons] at fits
  obtain ⟨id, name, updated, branches, steps, -⟩ := fits
  have widths : project.cells.map List.length = [34, 24, 17, 8, 6] := by
    simp only [cells, values, List.zipWith_cons_cons, List.zipWith_nil_left, List.map_cons,
      List.map_nil, List.length_rightpad, List.length_leftpad, Nat.max_eq_left, id, name, updated,
      branches, steps]
  rw [← String.length_toList, row]
  refine ⟨?_, ?_⟩
  · simp only [cells, values, List.zipWith_cons_cons, List.zipWith_nil_left,
      List.intercalate_cons_cons, List.intercalate_singleton, List.length_append,
      List.length_rightpad, List.length_leftpad, Nat.max_eq_left, id, name, updated, branches, steps,
      List.length_singleton]
  · have all := forall₂_columnStarts [] project.cells
    rw [widths] at all
    exact all

theorem text_eq_marker_iff (withSteps : Bool) (projects : List Project) :
    (ListView.ofProjects projects).text withSteps = "No projects yet.\n" ↔ projects = [] := by
  constructor
  · intro marker
    by_contra some
    have first : ListLine.header.text.toList.head? = .some 'I' := by decide +kernel
    have same := congrArg (·.toList.head?) marker
    rw [ListView.text, lines_ofProjects withSteps some, ListLine.ofProjects,
      List.filter_cons_of_pos (by exact Bool.or_true withSteps), List.map_cons, Text.ofLines_cons,
      List.head?_append, first] at same
    cases same
  · rintro rfl
    rfl

/-! ## The list of a state -/

theorem pieces_text {projects : List Project} (some : projects ≠ [])
    (unbroken : ∀ project ∈ projects, project.IsUnbroken) (withSteps : Bool) :
    Text.pieces '\n' ((ListView.ofProjects projects).text withSteps) =
      ((ListLine.ofProjects projects).filter fun line => withSteps || !line.isStep).map
        ListLine.text ++ [""] := by
  rw [ListView.text, lines_ofProjects withSteps some]
  refine Text.pieces_ofLines fun line listed => ?_
  obtain ⟨line, kept, rfl⟩ := List.mem_map.1 listed
  exact ListLine.isUnbroken_text unbroken line (List.mem_of_mem_filter kept)

/-- The lines are those of the snapshot, in its order, and without the steps the others are the
same. Every value appears uncut. The row of a project whose values fit has 93 characters, and its
columns are at fixed places. Only for an empty snapshot is there the marker alone. -/
theorem list_shows_snapshot (state : State) :
    (state.projects ≠ [] → (∀ project ∈ state.projects, project.IsUnbroken) →
      Text.pieces '\n' (state.view.list.text true) =
        (ListLine.ofProjects state.projects).map ListLine.text ++ [""] ∧
      Text.pieces '\n' (state.view.list.text false) =
        ((ListLine.ofProjects state.projects).filter fun line => !line.isStep).map
          ListLine.text ++ [""]) ∧
    (∀ line ∈ ListLine.ofProjects state.projects, ∀ value ∈ line.values,
      value <:+: line.text.toList) ∧
    (∀ project ∈ state.projects, project.Fits →
      (ListLine.project project).text.length = 93 ∧
      List.Forall₂ (fun start cell =>
        ((ListLine.project project).text.toList.drop start).take cell.length = cell)
        [0, 35, 60, 78, 87] project.cells) ∧
    ∀ withSteps, state.view.list.text withSteps = "No projects yet.\n" ↔ state.projects = [] := by
  refine ⟨fun some unbroken => ⟨?_, ?_⟩, fun line _ => line.values_infix,
    fun project _ => project.columns, fun withSteps => text_eq_marker_iff withSteps state.projects⟩
  · have all := pieces_text some unbroken true
    simp only [Bool.true_or, List.filter_true] at all
    exact all
  · exact pieces_text some unbroken false

theorem list_shows_snapshot_of_wide :
    let fits : Project := {
      id := "p-1"
      name := "Größe"
      updatedAt := some "2024-05-01T00:30:00+02:00"
      branches := [
        { id := "b-1", name := "main", steps := [⟨10, "Draft"⟩, ⟨-2, "Fix"⟩] },
        { id := "b-2", name := "dev" }] }
    let wide : Project := { id := "an id that is wider than its column", name := "Wide" }
    let state : State := { projects := [fits, wide] }
    state.projects ≠ [] ∧ (∀ project ∈ state.projects, project.IsUnbroken) ∧ fits.Fits ∧
      Text.pieces '\n' (state.view.list.text true) = [
        "ID                                 NAME                     UPDATED           BRANCHES  STEPS",
        "---------------------------------- ------------------------ ----------------- -------- ------",
        "p-1                                Größe                    2024-04-30 22:30         2      2",
        "    main (latest: Fix)",
        "      #10   Draft",
        "      #-2   Fix",
        "    dev (no steps)",
        "an id that is wider than its column Wide                     never                    0      0",
        ""] ∧
      (ListLine.project fits).text.length = 93 ∧
      state.view.list.text false ≠ "No projects yet.\n" := by
  intro fits wide state
  have unbroken : ∀ project ∈ state.projects, project.IsUnbroken := by
    rw [List.forall_mem_cons, List.forall_mem_singleton]
    exact ⟨⟨by decide, by decide, by decide, by decide, by decide⟩,
      by decide, by decide, by decide, by decide, by decide⟩
  have small : fits.Fits := by
    unfold Project.Fits
    decide +kernel
  obtain ⟨lines, -, columns, marker⟩ := list_shows_snapshot state
  refine ⟨by decide, unbroken, small, (lines (by decide) unbroken).1.trans ?_,
    (columns fits List.mem_cons_self small).1, fun alone => ?_⟩
  · decide +kernel
  · exact absurd ((marker false).1 alone) (by decide)

end ProjectClient
