import FaultSnapshot.Report.Serializer
import Mathlib.Data.List.Basic

/-!
# Blocks of the text format

A frame is a block of lines in the text format, and nothing in a block is escaped. Line ends cut the
text into lines, and of a line within a block its second character tells whether it belongs to a
variable or closes the block. A line is then cut at its last dot or at its first equals sign, so that
owners and values may have these too (`Serializer.text_unambiguous`).
-/

namespace FaultSnapshot

variable {P : Program}

/-- A frame as the text format shows it: its owner, its method, and its variables with their values. -/
structure Block where
  owner : String
  method : String
  vars : List (String × String)
  deriving DecidableEq

def Block.layout (b : Block) : String :=
  frameLine b.owner b.method ++ String.join (b.vars.map fun e => variableLine e.1 e.2) ++ frameEnd

def reportText (title : String) (blocks : List Block) : String :=
  title ++ String.join (blocks.map Block.layout) ++ reportEnd

/-! ## What is written -/

/-- The block of a frame, with its owner and its values rendered. -/
def View.block (exec : Exec P) (site : Site) (v : View P.Code) : Run P Block := do
  let owner ← v.owner? exec site
  return ⟨owner.getD noOwner, v.method, ← v.rendered exec site⟩

/-- The blocks of the frames of a trigger's tracker on a thread. -/
def Trigger.blocks (exec : Exec P) (site : Site) (t : Trigger) : Run P (List Block) := do
  (← t.views site.thread).mapM (View.block exec site)

section
variable (exec : Exec P) (site : Site)

theorem writeVariables_eq (out : String) (vars : List (String × CellId)) :
    writeVariables exec site out vars = (do
      let shown ← vars.mapM fun e => return (e.1, ← CellId.present (Object.render exec site) e.2)
      return out ++ String.join (shown.map fun e => variableLine e.1 e.2) : Run P String) := by
  induction vars generalizing out with
  | nil => simp [writeVariables]
  | cons e vars ih => simp [writeVariables, ih, String.append_assoc]

theorem writeFrames_eq (out : String) (views : List (View P.Code)) :
    writeFrames exec site out views = (do
      let blocks ← views.mapM (View.block exec site)
      return out ++ String.join (blocks.map Block.layout) : Run P String) := by
  induction views generalizing out with
  | nil => simp [writeFrames]
  | cons v views ih =>
    simp [writeFrames, writeVariables_eq, ih, View.block, View.rendered, Block.layout, String.append_assoc]

theorem Serializer.write_text_eq (t : Trigger) :
    Serializer.text.write exec site t = reportText t.title <$> t.blocks exec site := by
  simp [Serializer.write, writeFrames_eq, Trigger.blocks]
  rfl

end

/-! ## Parts of a line -/

namespace Text

variable {α : Type} {a : α} {x x' z z' : List α}

/-- Two lists that are cut at the first place of an element are cut alike. -/
theorem cut_first (first : a ∉ x) (first' : a ∉ x') (same : x ++ a :: z = x' ++ a :: z') : x = x' ∧ z = z' := by
  induction x generalizing x' with
  | nil =>
    cases x' with
    | nil => simpa using same
    | cons b x' =>
      obtain ⟨rfl, _⟩ := List.cons.inj same
      exact absurd List.mem_cons_self first'
  | cons b x ih =>
    cases x' with
    | nil =>
      obtain ⟨rfl, _⟩ := List.cons.inj same
      exact absurd List.mem_cons_self first
    | cons b' x' =>
      obtain ⟨rfl, rest⟩ := List.cons.inj same
      obtain ⟨rfl, rfl⟩ := ih (List.not_mem_of_not_mem_cons first) (List.not_mem_of_not_mem_cons first') rest
      exact ⟨rfl, rfl⟩

/-- Two lists that are cut at the last place of an element are cut alike. -/
theorem cut_last (last : a ∉ z) (last' : a ∉ z') (same : x ++ a :: z = x' ++ a :: z') : x = x' ∧ z = z' := by
  have reversed : z.reverse ++ a :: x.reverse = z'.reverse ++ a :: x'.reverse := by
    simpa using congrArg List.reverse same
  obtain ⟨after, before⟩ := cut_first (by simpa using last) (by simpa using last') reversed
  exact ⟨List.reverse_inj.mp before, List.reverse_inj.mp after⟩

/-- A text between two others lies within a line with them. -/
theorem within_line {before inner after : String} (opened : '\n' ∉ before.toList) (inside : '\n' ∉ inner.toList)
    (closed : '\n' ∉ after.toList) : '\n' ∉ (before ++ inner ++ after).toList := by
  simp [opened, inside, closed]

/-- Lines, each with its end. -/
def ended (lines : List (List Char)) : List Char := lines.flatMap (· ++ ['\n'])

@[simp] theorem ended_nil : ended [] = [] := rfl

@[simp] theorem ended_cons (l : List Char) (lines : List (List Char)) :
    ended (l :: lines) = l ++ '\n' :: ended lines := by simp [ended]

@[simp] theorem ended_append (lines lines' : List (List Char)) :
    ended (lines ++ lines') = ended lines ++ ended lines' := by simp [ended]

/-- Lines are told apart by their ends, and from what comes after the last of them. -/
theorem ended_inj {lines lines' : List (List Char)} {rest rest' : List Char} (clean : ∀ l ∈ lines, '\n' ∉ l)
    (clean' : ∀ l ∈ lines', '\n' ∉ l) (last : '\n' ∉ rest) (last' : '\n' ∉ rest')
    (same : ended lines ++ rest = ended lines' ++ rest') : lines = lines' ∧ rest = rest' := by
  induction lines generalizing lines' with
  | nil =>
    cases lines' with
    | nil => exact ⟨rfl, same⟩
    | cons l' lines' =>
      rw [ended_nil, List.nil_append] at same
      simp [same] at last
  | cons l lines ih =>
    cases lines' with
    | nil =>
      rw [ended_nil, List.nil_append] at same
      simp [← same] at last'
    | cons l' lines' =>
      rw [List.forall_mem_cons] at clean clean'
      rw [ended_cons, ended_cons, List.append_assoc, List.append_assoc] at same
      obtain ⟨rfl, later⟩ := cut_first clean.1 clean'.1 same
      obtain ⟨rfl, rfl⟩ := ih clean.2 clean'.2 later
      exact ⟨rfl, rfl⟩

end Text

/-! ## Lines of a block -/

/-- The line of a variable, without its end. -/
def variableChars (e : String × String) : List Char := '\t' :: '\t' :: (e.1.toList ++ '=' :: e.2.toList)

namespace Block

/-- The line that opens the block, without its end. -/
def opening (b : Block) : List Char := '\t' :: (b.owner.toList ++ '.' :: (b.method.toList ++ [' ', '\x7b']))

/-- The line that closes a block, without its end. -/
def closing : List Char := ['\t', '\x7d']

/-- The lines of a block, without their ends. -/
def lines (b : Block) : List (List Char) := b.opening :: (b.vars.map variableChars ++ [closing])

theorem toList_variableLine (e : String × String) : (variableLine e.1 e.2).toList = variableChars e ++ ['\n'] := by
  simp [variableLine, variableChars]

theorem toList_layout (b : Block) : b.layout.toList = Text.ended b.lines := by
  simp [layout, toList_variableLine, lines, opening, closing, frameLine, frameEnd, Text.ended, List.flatMap_map]

/-- The texts of the block lie within a line, the method ends before a dot, and the names of the
    variables end before an equals sign. -/
structure Clean (b : Block) : Prop where
  owner : '\n' ∉ b.owner.toList
  method : '\n' ∉ b.method.toList
  undotted : '.' ∉ b.method.toList
  names : ∀ e ∈ b.vars, '\n' ∉ e.1.toList ∧ '=' ∉ e.1.toList
  values : ∀ e ∈ b.vars, '\n' ∉ e.2.toList

instance (b : Block) : Decidable b.Clean :=
  decidable_of_iff
    ('\n' ∉ b.owner.toList ∧ '\n' ∉ b.method.toList ∧ '.' ∉ b.method.toList ∧
      (∀ e ∈ b.vars, '\n' ∉ e.1.toList ∧ '=' ∉ e.1.toList) ∧ ∀ e ∈ b.vars, '\n' ∉ e.2.toList)
    ⟨fun ⟨owner, method, undotted, names, values⟩ => ⟨owner, method, undotted, names, values⟩,
      fun ⟨owner, method, undotted, names, values⟩ => ⟨owner, method, undotted, names, values⟩⟩

theorem Clean.lines {b : Block} (clean : b.Clean) : ∀ l ∈ b.lines, '\n' ∉ l := by
  intro l member
  rcases List.mem_cons.mp member with rfl | member
  · simp [opening, clean.owner, clean.method]
  · rcases List.mem_append.mp member with member | member
    · obtain ⟨e, inside, rfl⟩ := List.mem_map.mp member
      simp [variableChars, (clean.names e inside).1, clean.values e inside]
    · obtain rfl := List.mem_singleton.mp member
      simp [closing]

theorem variableChars_inj {e e' : String × String} (name : '=' ∉ e.1.toList) (name' : '=' ∉ e'.1.toList)
    (same : variableChars e = variableChars e') : e = e' := by
  obtain ⟨names, values⟩ := Text.cut_first name name' (List.cons.inj (List.cons.inj same).2).2
  exact Prod.ext (String.toList_inj.mp names) (String.toList_inj.mp values)

theorem opening_inj {b b' : Block} (undotted : '.' ∉ b.method.toList) (undotted' : '.' ∉ b'.method.toList)
    (same : b.opening = b'.opening) : b.owner = b'.owner ∧ b.method = b'.method := by
  obtain ⟨owners, methods⟩ := Text.cut_last (by simp [undotted]) (by simp [undotted']) (List.cons.inj same).2
  exact ⟨String.toList_inj.mp owners, String.toList_inj.mp (List.append_cancel_right methods)⟩

/-- Variables end where a block is closed: the second character of a line tells which it is. -/
theorem variables_inj {vars vars' : List (String × String)} {rest rest' : List (List Char)}
    (names : ∀ e ∈ vars, '=' ∉ e.1.toList) (names' : ∀ e ∈ vars', '=' ∉ e.1.toList)
    (same : vars.map variableChars ++ closing :: rest = vars'.map variableChars ++ closing :: rest') :
    vars = vars' ∧ rest = rest' := by
  induction vars generalizing vars' with
  | nil =>
    cases vars' with
    | nil => exact ⟨rfl, (List.cons.inj same).2⟩
    | cons e' vars' => simp [closing, variableChars] at same
  | cons e vars ih =>
    cases vars' with
    | nil => simp [closing, variableChars] at same
    | cons e' vars' =>
      rw [List.forall_mem_cons] at names names'
      obtain ⟨first, later⟩ := List.cons.inj same
      obtain rfl := variableChars_inj names.1 names'.1 first
      obtain ⟨rfl, rfl⟩ := ih names.2 names'.2 later
      exact ⟨rfl, rfl⟩

/-- Blocks are told apart by their lines. -/
theorem lines_inj {blocks blocks' : List Block} (clean : ∀ b ∈ blocks, b.Clean) (clean' : ∀ b ∈ blocks', b.Clean)
    (same : blocks.flatMap lines = blocks'.flatMap lines) : blocks = blocks' := by
  induction blocks generalizing blocks' with
  | nil =>
    cases blocks' with
    | nil => rfl
    | cons b' blocks' => simp [lines] at same
  | cons b blocks ih =>
    cases blocks' with
    | nil => simp [lines] at same
    | cons b' blocks' =>
      rw [List.forall_mem_cons] at clean clean'
      simp only [List.flatMap_cons, lines, List.cons_append, List.append_assoc, List.nil_append] at same
      obtain ⟨first, rest⟩ := List.cons.inj same
      obtain ⟨owner, method⟩ := opening_inj clean.1.undotted clean'.1.undotted first
      obtain ⟨vars, later⟩ := variables_inj (fun e member => (clean.1.names e member).2)
        (fun e member => (clean'.1.names e member).2) rest
      obtain rfl : b = b' := by
        cases b
        cases b'
        simp_all
      rw [ih clean.2 clean'.2 later]

end Block

/-! ## Reports on errors -/

/-- The first line of a report on an error, without its end. -/
def titleLine (error : String) : String := "Snaperr - state snapshot of error '" ++ error ++ "': ["

theorem errorTitle_eq (error : String) : errorTitle error = titleLine error ++ "\n" := by
  have closing : "': [\n" = "': [" ++ "\n" := rfl
  exact (congrArg _ closing).trans String.append_assoc.symm

theorem titleLine_inj {error error' : String} (same : titleLine error = titleLine error') : error = error' :=
  (String.append_right_inj _).mp ((String.append_left_inj _).mp same)

theorem titleLine_clean {error : String} (clean : '\n' ∉ error.toList) : '\n' ∉ (titleLine error).toList :=
  Text.within_line (by decide) clean (by decide)

/-- The lines of a report on an error; a bracket without a line end comes after them. -/
def reportLines (error : String) (blocks : List Block) : List (List Char) :=
  (titleLine error).toList :: blocks.flatMap Block.lines

theorem toList_reportText (error : String) (blocks : List Block) :
    (reportText (errorTitle error) blocks).toList = Text.ended (reportLines error blocks) ++ [']'] := by
  have texts : (String.join (blocks.map Block.layout)).toList = Text.ended (blocks.flatMap Block.lines) := by
    simp [Block.toList_layout, Text.ended, List.flatMap_map, List.flatMap_assoc]
  have title : (titleLine error ++ "\n").toList = (titleLine error).toList ++ ['\n'] := String.toList_append
  rw [reportText, String.toList_append, String.toList_append, errorTitle_eq, title, texts, reportLines, Text.ended_cons,
    List.append_assoc (titleLine error).toList]
  rfl

theorem reportLines_clean {error : String} {blocks : List Block} (within : '\n' ∉ error.toList)
    (clean : ∀ b ∈ blocks, b.Clean) : ∀ l ∈ reportLines error blocks, '\n' ∉ l := by
  rw [reportLines, List.forall_mem_cons]
  refine ⟨titleLine_clean within, ?_⟩
  intro l member
  obtain ⟨b, inside, member⟩ := List.mem_flatMap.mp member
  exact (clean b inside).lines l member

/-- The text format writes the title of a trigger and then its frames, with owners and values as they
    are rendered at that moment. Of reports on errors the text tells the error and the frames, in their
    order, with their owners, methods, variables and values: where the texts involved lie within a line,
    no method has a dot and no variable has an equals sign in its name, two reports with one text are of
    one error and of the same frames. -/
theorem Serializer.text_unambiguous :
    (∀ (exec : Exec P) (site : Site) (t : Trigger),
        Serializer.text.write exec site t = reportText t.title <$> t.blocks exec site) ∧
      ∀ (error error' : String) (blocks blocks' : List Block), '\n' ∉ error.toList → '\n' ∉ error'.toList →
        (∀ b ∈ blocks, b.Clean) → (∀ b ∈ blocks', b.Clean) →
        reportText (errorTitle error) blocks = reportText (errorTitle error') blocks' →
          error = error' ∧ blocks = blocks' := by
  refine ⟨Serializer.write_text_eq, ?_⟩
  intro error error' blocks blocks' within within' clean clean' same
  have texts := congrArg String.toList same
  rw [toList_reportText, toList_reportText] at texts
  obtain ⟨told, _⟩ := Text.ended_inj (reportLines_clean within clean) (reportLines_clean within' clean') (by decide)
    (by decide) texts
  obtain ⟨title, frames⟩ := List.cons.inj told
  exact ⟨titleLine_inj (String.toList_inj.mp title), Block.lines_inj clean clean' frames⟩

/-- A frame whose texts have marks of the layout in them, below one without an owner. -/
def Block.samples : List Block :=
  [⟨"Store.Disk", "save \x7b", [("path", "/tmp/a=b\t\x7d"), ("retries\t", "[3]")]⟩, ⟨noOwner, "main", []⟩]

theorem Serializer.text_unambiguous_sample :
    (∀ b ∈ Block.samples, b.Clean) ∧
      reportText (errorTitle "disk 'a' full': [") Block.samples ≠
        reportText (errorTitle "disk 'a' full': [") Block.samples.reverse ∧
      Block.samples = [⟨"Store.Disk", "save \x7b", ["path", "retries\t"].zip ["/tmp/a=b\t\x7d", "[3]"]⟩,
        ⟨noOwner, "main", []⟩] := by
  have within : '\n' ∉ "disk 'a' full': [".toList := by decide
  have clean : ∀ b ∈ Block.samples, b.Clean := by decide
  have clean' : ∀ b ∈ Block.samples.reverse, b.Clean := by decide
  refine ⟨clean, ?_, ?_⟩
  · intro same
    have told := (text_unambiguous (P := ⟨Unit, Unit⟩)).2 _ _ _ _ within within clean clean' same
    exact absurd told.2 (by decide)
  · exact ((text_unambiguous (P := ⟨Unit, Unit⟩)).2 _ _ _ _ within within clean clean rfl).2

/-- With a dot in a method, the text does not tell where the owner ends. -/
example : Block.layout ⟨"Store.Disk", "save", []⟩ = Block.layout ⟨"Store", "Disk.save", []⟩ := rfl

end FaultSnapshot
