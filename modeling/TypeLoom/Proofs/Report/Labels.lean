/-
**Labels mark what they are about.**

A report of a syntax error marks the place where the error was met. A report of a template error marks
a line, of which only the number is known: the lines before it, each with its newline, lead to where it
starts (`lineSpanFrom_eq_some`, `marks_of_lineSpan`). So the labels of a failure lie in the text that is
attached to its report, whether the failure is that of reading a source or that of expanding it
(`failures_wellLabelled`).
-/

import TypeLoom.Proofs.Expansion.Failing
import TypeLoom.Proofs.Report.Places
import TypeLoom.Report

namespace TypeLoom

/-! ### Lines of a text -/

namespace Text

/-- Between `before` and `after`, `line` is a line of a text, without its newline: the one with the
given number, counted from 1. -/
structure IsLine (number : Nat) (before line after : String) : Prop where
  number : number = newlines before.toList + 1
  opens : before = "" ∨ ∃ earlier, before = earlier ++ "\n"
  single : newlines line.toList = 0
  closes : after = "" ∨ ∃ later, after = "\n" ++ later

theorem lineChars_eq_splitOn (cs : List Char) : lineChars cs = cs.splitOn '\n' := by
  induction cs with
  | nil => rfl
  | cons c rest ih =>
    rw [List.splitOn_cons_eq_if_modifyHead, ← ih, lineChars]
    split
    · rfl
    · have some : lineChars rest ≠ [] := ih ▸ List.splitOn_ne_nil '\n' rest
      cases lines : lineChars rest with
      | nil => exact absurd lines some
      | cons line lines => rfl

/-- The lines of a text, with newlines between them, are the text. -/
theorem intercalate_lines (s : String) : "\n".intercalate (lines s) = s := by
  rw [← String.toList_inj, String.toList_intercalate, lines, List.map_map, lineChars_eq_splitOn]
  simp [Function.comp_def, List.intercalate_splitOn]

theorem newlines_of_mem_lineChars {cs line : List Char} (member : line ∈ lineChars cs) :
    newlines line = 0 := by
  induction cs generalizing line with
  | nil =>
    cases List.mem_singleton.mp member
    rfl
  | cons c rest ih =>
    rw [lineChars] at member
    split at member
    · rcases List.mem_cons.mp member with rfl | later
      · rfl
      · exact ih later
    · rename_i other
      have plain : c ≠ '\n' := by simpa using other
      split at member
      · cases List.mem_singleton.mp member
        simp [newlines, plain]
      · rename_i first more lines
        rw [lines] at ih
        rcases List.mem_cons.mp member with rfl | later
        · simpa [newlines, plain] using ih List.mem_cons_self
        · exact ih (List.mem_cons_of_mem _ later)

theorem newlines_of_mem_lines {s line : String} (member : line ∈ lines s) :
    newlines line.toList = 0 := by
  obtain ⟨cs, among, rfl⟩ := List.mem_map.mp member
  rw [String.toList_ofList]
  exact newlines_of_mem_lineChars among

/-- The lines at the front of a text, each with its newline. -/
def closed (front : List String) : String :=
  String.join (front.map (· ++ "\n"))

theorem closed_cons (line : String) (front : List String) :
    closed (line :: front) = line ++ "\n" ++ closed front := by
  rw [closed, List.map_cons, String.join_cons, closed]

theorem newlines_closed {front : List String}
    (single : ∀ line ∈ front, newlines line.toList = 0) :
    newlines (closed front).toList = front.length := by
  induction front with
  | nil => rfl
  | cons line front ih =>
    have here : newlines line.toList = 0 := single line List.mem_cons_self
    have rest := ih fun line member => single line (List.mem_cons_of_mem _ member)
    unfold newlines at here rest ⊢
    rw [closed_cons, String.toList_append, String.toList_append, List.count_append,
      List.count_append, here, rest]
    simp [Nat.add_comm]

theorem closed_opens (front : List String) :
    closed front = "" ∨ ∃ earlier, closed front = earlier ++ "\n" := by
  rcases List.eq_nil_or_concat front with rfl | ⟨front, last, rfl⟩
  · exact Or.inl rfl
  · refine Or.inr ⟨closed front ++ last, ?_⟩
    simp [closed, String.append_assoc]

/-- The text with the given lines, cut before one of them. -/
theorem intercalate_cut (front : List String) (line : String) (back : List String) :
    "\n".intercalate (front ++ line :: back) =
      closed front ++ "\n".intercalate (line :: back) := by
  induction front with
  | nil => exact (String.empty_append).symm
  | cons first front ih =>
    rw [List.cons_append, String.intercalate_cons_of_ne_nil (by simp), ih, closed_cons]
    exact String.append_assoc.symm

/-- What stands behind the first of some lines is empty or starts with a newline. -/
theorem intercalate_closes (line : String) (back : List String) :
    ∃ after, "\n".intercalate (line :: back) = line ++ after ∧
      (after = "" ∨ ∃ later, after = "\n" ++ later) := by
  cases back with
  | nil => exact ⟨"", by simp, Or.inl rfl⟩
  | cons next back =>
    refine ⟨"\n" ++ "\n".intercalate (next :: back), ?_, Or.inr ⟨_, rfl⟩⟩
    rw [String.intercalate_cons_of_ne_nil (List.cons_ne_nil next back), String.append_assoc]

/-- Going through lines leads to the one that is looked for, behind those before it. -/
theorem lineSpanFrom_eq_some {start number : Nat} {lines : List String} {span : Span}
    (counted : number ≠ 0) (found : lineSpanFrom start lines number = some span) :
    ∃ front line back, lines = front ++ line :: back ∧ number = front.length + 1 ∧
      span = Span.between (start + (closed front).utf8ByteSize)
        (start + (closed front ++ line).utf8ByteSize) := by
  -- Each line that is passed moves `start` on by its bytes and one for the newline.
  induction lines generalizing start number with
  | nil => cases found
  | cons first rest ih =>
    rw [lineSpanFrom] at found
    split at found
    · rename_i one
      have here : number = 1 := by simpa using one
      refine ⟨[], first, rest, rfl, here, ?_⟩
      rw [← Option.some.inj found]
      simp [closed]
    · rename_i other
      have more : number ≠ 1 := by simpa using other
      obtain ⟨front, line, back, same, count, place⟩ := ih (by omega) found
      refine ⟨first :: front, line, back, by rw [same, List.cons_append], ?_, ?_⟩
      · rw [List.length_cons]
        omega
      · rw [place, closed_cons]
        simp only [String.utf8ByteSize_append, Nat.add_assoc]
        rfl

/-- **The bytes of a line are where the line stands.** -/
theorem marks_of_lineSpan {s : String} {number : Nat} {span : Span}
    (found : lineSpan s number = some span) :
    ∃ before line after, span.Marks s before line after ∧ IsLine number before line after := by
  unfold lineSpan at found
  split at found
  · cases found
  · rename_i other
    obtain ⟨front, line, back, cut, count, rfl⟩ :=
      lineSpanFrom_eq_some (by simpa using other) found
    obtain ⟨after, rest, closes⟩ := intercalate_closes line back
    have single : ∀ line ∈ lines s, newlines line.toList = 0 := fun _ => newlines_of_mem_lines
    rw [cut] at single
    have whole : s = closed front ++ line ++ after := by
      rw [← intercalate_lines s, cut, intercalate_cut, rest, String.append_assoc]
    refine ⟨closed front, line, after, ?_, ?_, closed_opens front, single line (by simp), closes⟩
    · simpa only [Nat.zero_add] using Span.marks_between whole
    · rw [count, newlines_closed fun line member => single line (List.mem_append_left _ member)]

theorem length_lineChars (cs : List Char) : (lineChars cs).length = newlines cs + 1 := by
  induction cs with
  | nil => rfl
  | cons c rest ih =>
    unfold newlines at ih ⊢
    rw [lineChars]
    split
    · rename_i newline
      rw [List.length_cons, ih, eq_of_beq newline, List.count_cons_self]
    · rename_i other
      have plain : c ≠ '\n' := by simpa using other
      rw [List.count_cons_of_ne plain]
      cases lines : lineChars rest with
      | nil =>
        rw [lines] at ih
        cases ih
      | cons line lines =>
        rw [lines] at ih
        exact ih

theorem exists_lineSpanFrom {number : Nat} {lines : List String} (counted : number ≠ 0)
    (some : number ≤ lines.length) (start : Nat) :
    ∃ span, lineSpanFrom start lines number = .some span := by
  induction lines generalizing start number with
  | nil => exact absurd (Nat.le_zero.mp some) counted
  | cons first rest ih =>
    rw [lineSpanFrom]
    split
    · exact ⟨_, rfl⟩
    · rename_i other
      have more : number ≠ 1 := by simpa using other
      rw [List.length_cons] at some
      exact ih (by omega) (by omega) _

/-- Every line of a text is found. -/
theorem exists_lineSpan {s : String} {number : Nat} (counted : 1 ≤ number)
    (some : number ≤ newlines s.toList + 1) : ∃ span, lineSpan s number = .some span := by
  have positive : number ≠ 0 := Nat.ne_of_gt counted
  rw [lineSpan, if_neg (by simpa using positive)]
  refine exists_lineSpanFrom positive ?_ 0
  rw [lines, List.length_map, length_lineChars]
  exact some

end Text

/-! ### Labels of reports -/

/-- Every label of the report lies within the text that is attached. -/
def Report.Labelled (report : Report) : Prop :=
  ∀ label ∈ report.labels.getD [], ∃ text, report.source = some text ∧ label.span.Within text

/-- What the report of a failure marks: the labels lie within the attached text, that of a template
error is the line of the error and is there whenever the template has that line, and a syntax error
points into the text it is shown with. -/
structure Failure.WellLabelled (failure : Failure) : Prop where
  labelled : (Report.ofFailure failure).Labelled
  template : ∀ e, failure = .template e →
    ∀ label ∈ (Report.ofFailure failure).labels.getD [], ∃ number before line after,
      e.line = some number ∧ label.span.Marks e.text before line after ∧
        Text.IsLine number before line after
  marked : ∀ e number, failure = .template e → e.line = some number → 1 ≤ number →
    number ≤ Text.newlines e.text.toList + 1 →
      ∃ label, (Report.ofFailure failure).labels = some [label]
  source : ∀ e, failure = .source e → ∃ text, (Report.ofFailure failure).source = some text ∧
    e.PointsInto text ∧ (Report.ofFailure failure).labels.map (·.map Label.span) = some [e.span]

theorem label_of_template {e : Template.TemplateError} {label : Label}
    (member : label ∈ (Report.ofTemplateError e).labels.getD []) :
    ∃ number before line after, e.line = some number ∧
      label.span.Marks e.text before line after ∧ Text.IsLine number before line after := by
  unfold Report.ofTemplateError at member
  cases known : e.line with
  | none =>
    rw [known] at member
    cases member
  | some number =>
    rw [known] at member
    cases found : Text.lineSpan e.text number with
    | none =>
      simp only [bind, Option.bind, found] at member
      cases member
    | some span =>
      simp only [bind, Option.bind, found] at member
      cases List.mem_singleton.mp member
      obtain ⟨before, line, after, marks, isLine⟩ := Text.marks_of_lineSpan found
      exact ⟨number, before, line, after, rfl, marks, isLine⟩

theorem wellLabelled_template (e : Template.TemplateError) :
    (Failure.template e).WellLabelled where
  labelled label member := by
    obtain ⟨number, before, line, after, known, marks, _⟩ := label_of_template member
    exact ⟨e.text, congrArg (Option.map fun _ => e.text) known, marks.within⟩
  template e' same label member := by
    cases same
    exact label_of_template member
  marked e' number same known counted among := by
    cases same
    obtain ⟨span, found⟩ := Text.exists_lineSpan counted among
    refine ⟨⟨span, "here"⟩, ?_⟩
    simp only [Report.ofFailure, Report.ofTemplateError, known, bind, Option.bind, found]
    rfl
  source _ same := by cases same

theorem ofFailure_source {source : String} {e : SyntaxError} (attached : e.source = some source) :
    Report.ofFailure (.source e) = Report.ofSyntaxError e source := by
  simp only [Report.ofFailure, attached]

theorem wellLabelled_source {source : String} {origin : Origin} {settings : ParseSettings}
    {e : SyntaxError} (failed : parse source origin settings = .error e) :
    (Failure.source e).WellLabelled := by
  obtain ⟨attached, points⟩ := pointsInto_parse failed
  refine ⟨?_, fun _ same => (by cases same), fun _ _ same => (by cases same), fun e' same => ?_⟩
  · rw [ofFailure_source attached]
    intro label member
    cases List.mem_singleton.mp member
    exact ⟨source, rfl, points.within⟩
  · cases same
    rw [ofFailure_source attached]
    exact ⟨source, rfl, points, rfl⟩

/-- A failure without a place. -/
theorem wellLabelled_of_unlabelled {failure : Failure}
    (unlabelled : (Report.ofFailure failure).labels = none)
    (noTemplate : ∀ e, failure ≠ .template e) (noSource : ∀ e, failure ≠ .source e) :
    failure.WellLabelled where
  labelled label member := by
    rw [unlabelled] at member
    cases member
  template e same := absurd same (noTemplate e)
  marked e _ same := absurd same (noTemplate e)
  source e same := absurd same (noSource e)

/-- A failure of an expansion is that of a template, that of a text which was read, or one without a
place. -/
theorem wellLabelled_of_traced {failure : Failure} (traced : failure.Traced) :
    failure.WellLabelled := by
  cases failure with
  | template e => exact wellLabelled_template e
  | source e =>
    obtain ⟨_, _, _, failed⟩ := traced e rfl
    exact wellLabelled_source failed
  | file failure =>
    exact wellLabelled_of_unlabelled rfl (fun _ same => by cases same) fun _ same => by cases same
  | expansion e =>
    exact wellLabelled_of_unlabelled rfl (fun _ same => by cases same) fun _ same => by cases same

/-- **Reports point into their text.** The error of a source points into it, and it is shown with that
source. And whatever a source or an expansion fails with, the labels of its report lie within the text
that is attached: that of a template is the whole line that its error names, if there is such a line. -/
theorem failures_wellLabelled :
    (∀ source origin settings e, parse source origin settings = .error e →
      e.span.Within source ∧ e.PointsInto source ∧
      (Report.ofFailure (.source e)).source = some source ∧ (Failure.source e).WellLabelled) ∧
    ∀ settings tree failure, expand settings tree = .error failure → failure.WellLabelled := by
  refine ⟨fun source origin settings e failed => ?_, fun settings tree failure failed => ?_⟩
  · obtain ⟨attached, points⟩ := pointsInto_parse failed
    refine ⟨points.within, points, ?_, wellLabelled_source failed⟩
    rw [ofFailure_source attached]
    rfl
  · exact wellLabelled_of_traced (traced_expand failed)

/-- A source that ends too early, behind a character of two bytes, and one whose second line asks for a
function that is not there. -/
theorem failures_wellLabelled_lines :
    (∃ e, parse "é\nfunc" .text { requirePackage := false } = .error e ∧ e.span.stop = 7 ∧
      e.PointsInto "é\nfunc") ∧
    ∃ tree e label number before line after,
      parse "\nvar x = <:y:>" .text { requirePackage := false } = .ok tree ∧
      expand {} tree = .error (.template e) ∧
      label ∈ (Report.ofFailure (.template e)).labels.getD [] ∧
      e.line = some number ∧ label.span.Marks e.text before line after ∧
      Text.IsLine number before line after := by
  constructor
  · have ends : (match parse "é\nfunc" .text { requirePackage := false } with
        | .error e => e.span.stop == 7
        | .ok _ => false) = true := by decide +kernel
    split at ends
    · rename_i e failed
      exact ⟨e, failed, eq_of_beq ends, (failures_wellLabelled.1 _ _ _ e failed).2.1⟩
    · cases ends
  · have runs : (parse "\nvar x = <:y:>" .text { requirePackage := false }).toOption.any
        (fun tree => match expand {} tree with
          | .error (.template e) => ((Report.ofFailure (.template e)).labels.getD []).length == 1
          | _ => false) = true := by
      decide +kernel
    obtain ⟨tree, parsed, fails⟩ := exists_of_any runs
    split at fails
    · rename_i e failed
      obtain ⟨label, same⟩ := List.length_eq_one_iff.mp (eq_of_beq fails)
      have member : label ∈ (Report.ofFailure (.template e)).labels.getD [] := by
        rw [same]
        exact List.mem_singleton_self label
      obtain ⟨number, before, line, after, marked⟩ :=
        (failures_wellLabelled.2 {} tree _ failed).template e rfl label member
      exact ⟨tree, e, label, number, before, line, after, parsed, failed, member, marked⟩
    · cases fails

end TypeLoom
