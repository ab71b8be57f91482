import MetalRuntime.Foundations.QuotedText
import MetalRuntime.Foundations.TextLines

/-!
# Sources assembled from fragments

`assemble` of `source.py` and the reader that its `#line` markers are written for. A label is
escaped so that it cannot end its marker early, and this works for all labels in one line. A
label with a newline in it spills onto further lines, and no fragments at all still make an
empty line.
-/

namespace MetalRuntime

open Foundations

/-- A Python string, by its code points; they may be lone surrogates. -/
abbrev PyString := List UInt32

/-- A Python string literal. -/
def pyString (text : String) : PyString := text.toList.map Char.val

/-- The code point of a newline. -/
def newline : UInt32 := 10

/-- The code point of a double quote. -/
def quote : UInt32 := 34

/-- The code point of a backslash. -/
def backslash : UInt32 := 92

/-- `Fragment`. -/
structure Fragment where
  label : PyString
  text : PyString

/-- `_line_marker`. -/
def lineMarker (label : PyString) : PyString :=
  let escaped := replaceEach quote [backslash, quote]
    (replaceEach backslash [backslash, backslash] label)
  pyString "#line 1 \"" ++ escaped ++ [quote]

/-- `assemble`. -/
def assemble (fragments : List Fragment) : PyString :=
  let parts := fragments.foldl (fun parts frag => parts ++ [lineMarker frag.label, frag.text]) []
  [newline].intercalate parts ++ [newline]

/-- The lines of a text, which newlines separate; a text that ends with one has an empty last
line. -/
def textLines (text : PyString) : List PyString := text.splitOn newline

/-- The lines of a file, which newlines end. -/
def fileLines (file : PyString) : List PyString :=
  let pieces := file.splitOn newline
  if pieces.getLast? = some [] then pieces.dropLast else pieces

/-- The file that a line names if it is a marker: the whole of it must be a directive for line 1
with a quoted name. -/
def readMarker (line : PyString) : Option PyString :=
  if pyString "#line 1 \"" <+: line then
    match readQuoted backslash quote (line.drop (pyString "#line 1 \"").length) with
    | some (name, []) => some name
    | _ => none
  else none

/-- A line as a reader takes it: a marker, or a line of some file with its number there. The
lines in front of the first marker are in no file. -/
inductive SourceLine
  | marker (file : PyString)
  | code (file : Option PyString) (number : ℕ) (line : PyString)
  deriving DecidableEq

/-- Read lines, given the file and the number of the first one. -/
def attributeLines : Option PyString → ℕ → List PyString → List SourceLine
  | _, _, [] => []
  | file, number, line :: rest =>
    match readMarker line with
    | some name => .marker name :: attributeLines (some name) 1 rest
    | none => .code file number line :: attributeLines file (number + 1) rest

/-- Read a source. -/
def readSource (source : PyString) : List SourceLine := attributeLines none 1 (fileLines source)

/-- The lines of a fragment with their attribution: a marker, and each line of the text under
the label and its own number. -/
def Fragment.lines (fragment : Fragment) : List SourceLine :=
  .marker fragment.label ::
    (textLines fragment.text).mapIdx fun k line => .code (some fragment.label) (k + 1) line

/-- The assembled source reads as the lines of its fragments in order, and nothing else. -/
def KeepsAttribution (fragments : List Fragment) : Prop :=
  readSource (assemble fragments) = fragments.flatMap Fragment.lines

/-- The two replacements escape the label. -/
theorem lineMarker_eq (label : PyString) :
    lineMarker label = pyString "#line 1 \"" ++ (escapeText backslash quote label ++ [quote]) := by
  have hdistinct : backslash ≠ quote := by decide
  rw [lineMarker, replaceEach_replaceEach hdistinct, List.append_assoc]

/-- A marker names its label, whatever the label. -/
theorem readMarker_lineMarker (label : PyString) : readMarker (lineMarker label) = some label := by
  have hdistinct : backslash ≠ quote := by decide
  rw [lineMarker_eq, readMarker, if_pos (List.prefix_append _ _), List.drop_left,
    readQuoted_escapeText hdistinct]

/-- A marker has a newline exactly where its label has one. -/
theorem newline_mem_lineMarker {label : PyString} :
    newline ∈ lineMarker label ↔ newline ∈ label := by
  have hdirective : newline ∉ pyString "#line 1 \"" := by decide
  have hquote : newline ∉ [quote] := by decide
  have hescape : newline ≠ backslash := by decide
  rw [lineMarker_eq, List.mem_append, List.mem_append, or_iff_right hdirective,
    or_iff_left hquote, mem_escapeText_iff hescape]

/-- The marker of a label without a newline is one line. -/
theorem textLines_lineMarker {label : PyString} (h : newline ∉ label) :
    textLines (lineMarker label) = [lineMarker label] :=
  List.splitOn_eq_singleton fun hmem => h (newline_mem_lineMarker.mp hmem)

/-- The parts of the assembled source in order. -/
theorem assemble_eq (fragments : List Fragment) :
    assemble fragments = [newline].intercalate
      (fragments.flatMap fun frag => [lineMarker frag.label, frag.text]) ++ [newline] := by
  rw [assemble, List.flatMap_eq_foldl]

/-- A file that ends with a newline has the lines in front of it. -/
theorem fileLines_append_newline (text : PyString) :
    fileLines (text ++ [newline]) = textLines text := by
  have hpieces : (text ++ [newline]).splitOn newline = textLines text ++ [[]] := by
    rw [List.splitOn_append_cons_self, List.splitOn_nil, textLines]
  rw [fileLines, hpieces, List.getLast?_concat, if_pos rfl, List.dropLast_concat]

/-- The lines of the assembled source: those of each marker and of each text. -/
theorem fileLines_assemble {fragments : List Fragment} (h : fragments ≠ []) :
    fileLines (assemble fragments) = fragments.flatMap fun frag =>
      textLines (lineMarker frag.label) ++ textLines frag.text := by
  have hparts : (fragments.flatMap fun frag => [lineMarker frag.label, frag.text]) ≠ [] := by
    cases fragments with
    | nil => exact absurd rfl h
    | cons frag rest => exact List.cons_ne_nil _ _
  rw [assemble_eq, fileLines_append_newline, textLines, splitOn_intercalate newline hparts,
    List.flatMap_assoc]
  simp only [List.flatMap_cons, List.flatMap_nil, List.append_nil, textLines]

/-- Every line is read as one line. -/
@[simp] theorem length_attributeLines (file : Option PyString) (number : ℕ)
    (lines : List PyString) : (attributeLines file number lines).length = lines.length := by
  induction lines generalizing file number with
  | nil => rfl
  | cons line rest ih =>
    cases hmarker : readMarker line with
    | none => simp [attributeLines, hmarker, ih]
    | some name => simp [attributeLines, hmarker, ih]

/-- Lines that are no markers are numbered on. -/
theorem attributeLines_append {lines : List PyString} (h : ∀ line ∈ lines, readMarker line = none)
    (file : Option PyString) (number : ℕ) (rest : List PyString) :
    attributeLines file number (lines ++ rest) =
      (lines.mapIdx fun k line => .code file (number + k) line) ++
        attributeLines file (number + lines.length) rest := by
  induction lines generalizing number with
  | nil => rfl
  | cons line lines ih =>
    have hhead := h line List.mem_cons_self
    have htail := fun other hother => h other (List.mem_cons_of_mem line hother)
    rw [List.cons_append, attributeLines]
    simp only [hhead]
    rw [ih htail, List.mapIdx_cons, List.cons_append, List.length_cons]
    simp only [Nat.add_zero, Nat.add_assoc, Nat.add_comm 1]

/-- A marker and the lines of its text, read in any state, are the lines of the fragment. -/
theorem attributeLines_fragment {frag : Fragment} (hlabel : newline ∉ frag.label)
    (htext : ∀ line ∈ textLines frag.text, readMarker line = none) (file : Option PyString)
    (number : ℕ) (rest : List PyString) :
    attributeLines file number
        (textLines (lineMarker frag.label) ++ textLines frag.text ++ rest) =
      frag.lines ++
        attributeLines (some frag.label) (1 + (textLines frag.text).length) rest := by
  rw [textLines_lineMarker hlabel, List.append_assoc, List.singleton_append, attributeLines]
  simp only [readMarker_lineMarker]
  rw [attributeLines_append htext, Fragment.lines, List.cons_append]
  simp only [Nat.add_comm 1]

/-- The lines of the fragments, read in any state. -/
theorem attributeLines_fragments {fragments : List Fragment}
    (hlabels : ∀ frag ∈ fragments, newline ∉ frag.label)
    (htexts : ∀ frag ∈ fragments, ∀ line ∈ textLines frag.text, readMarker line = none)
    (file : Option PyString) (number : ℕ) :
    attributeLines file number (fragments.flatMap fun frag =>
        textLines (lineMarker frag.label) ++ textLines frag.text) =
      fragments.flatMap Fragment.lines := by
  induction fragments generalizing file number with
  | nil => rfl
  | cons frag rest ih =>
    have hlabel := hlabels frag List.mem_cons_self
    have htext := htexts frag List.mem_cons_self
    rw [List.flatMap_cons, List.flatMap_cons, attributeLines_fragment hlabel htext, ih]
    · exact fun other hother => hlabels other (List.mem_cons_of_mem frag hother)
    · exact fun other hother => htexts other (List.mem_cons_of_mem frag hother)

/-- A fragment has at least the line of its marker, and no more than its label allows. -/
theorem length_lines_le (frag : Fragment) :
    frag.lines.length ≤ (textLines (lineMarker frag.label) ++ textLines frag.text).length := by
  have hmarker : 0 < (textLines (lineMarker frag.label)).length :=
    List.length_pos_of_ne_nil (List.splitOn_ne_nil _ _)
  rw [Fragment.lines, List.length_cons, List.length_mapIdx, List.length_append]
  omega

/-- A source that keeps its attribution has one line for each marker. -/
theorem newline_not_mem_label {fragments : List Fragment} (hne : fragments ≠ [])
    (h : KeepsAttribution fragments) : ∀ frag ∈ fragments, newline ∉ frag.label := by
  have hlengths := congrArg List.length h
  rw [readSource, fileLines_assemble hne, length_attributeLines] at hlengths
  have hequal := length_eq_of_flatMap length_lines_le hlengths.symm
  intro frag hfrag hmem
  have hfragment := hequal frag hfrag
  rw [Fragment.lines, List.length_cons, List.length_mapIdx, List.length_append] at hfragment
  have hone : (textLines (lineMarker frag.label)).length = 1 := by omega
  exact not_mem_of_length_splitOn hone (newline_mem_lineMarker.mpr hmem)

/-- For every list of fragments with any labels, and texts in which no line is a marker, the
assembled source keeps its attribution exactly when there is a fragment and no label has a
newline. -/
theorem assemble_keeps_attribution_iff (fragments : List Fragment)
    (htexts : ∀ frag ∈ fragments, ∀ line ∈ textLines frag.text, readMarker line = none) :
    KeepsAttribution fragments ↔
      fragments ≠ [] ∧ ∀ frag ∈ fragments, newline ∉ frag.label := by
  constructor
  · intro h
    have hne : fragments ≠ [] := by
      intro hempty
      rw [hempty] at h
      exact absurd h (by unfold KeepsAttribution; decide)
    exact ⟨hne, newline_not_mem_label hne h⟩
  · intro h
    obtain ⟨hne, hlabels⟩ := h
    rw [KeepsAttribution, readSource, fileLines_assemble hne]
    exact attributeLines_fragments hlabels htexts none 1

/-- Quotes and backslashes in a label, and texts that are empty or end with a newline. -/
theorem odd_labels_keep_attribution :
    KeepsAttribution [⟨pyString "we\"ird\\", pyString "// x\n"⟩, ⟨pyString "", []⟩] :=
  (assemble_keeps_attribution_iff [⟨pyString "we\"ird\\", pyString "// x\n"⟩, ⟨pyString "", []⟩]
    (by decide)).mpr (by decide)

/-- A newline in a label ends its marker early, and no fragments make an empty line. -/
theorem newline_label_spills :
    readSource (assemble [⟨pyString "a\nb", pyString "x"⟩]) =
      [.code none 1 (pyString "#line 1 \"a"), .code none 2 (pyString "b\""),
        .code none 3 (pyString "x")] ∧
    readMarker (pyString "x") = none ∧
    ¬ KeepsAttribution [⟨pyString "a\nb", pyString "x"⟩] ∧
    readSource (assemble []) = [.code none 1 []] ∧ ¬ KeepsAttribution [] := by
  unfold KeepsAttribution
  decide

end MetalRuntime
