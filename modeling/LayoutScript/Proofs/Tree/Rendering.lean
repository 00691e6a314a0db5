import LayoutScript.Proofs.Text.Quoted
import LayoutScript.Tree.Outline
import Mathlib.Data.List.Basic
import Mathlib.Tactic.MkIffOfInductiveProp

/-!
The text of an outline determines the outline, up to ranges. Its lines are found between line
feeds, and each line shows its depth. The lines of a node end where a line is less deep than its
fields, so what stands for a node can be told from what follows it; this is carried through nodes
and fields by one induction.
-/

namespace LayoutScript

/-- No blank in front, so that the depth of a line can be seen. -/
def Unindented (text : String) : Prop := text.toList.head? ≠ some ' '

/-- A text of one line. -/
def Single (text : String) : Prop := '\n' ∉ text.toList

/-- A label ends at its colon. -/
@[mk_iff]
structure IsLabel (label : String) : Prop where
  unindented : Unindented label
  closed : ':' ∉ label.toList
  single : Single label

/-- The kind that has a name. -/
def NodeKind.ofName? (text : String) : Option NodeKind :=
  [literal, identifier, tuple, binary, unary, call, member, conditional, rebind, function,
    namePattern, tuplePattern, declare, assign, evaluate, whileLoop, ifBlock, define, block,
    program].find? fun kind => kind.name == text

/-- What can be read back is written for one value only. -/
theorem injective_of_read_back {α β : Type} {write : α → β} {read : β → Option α}
    (back : ∀ value, read (write value) = some value) : Function.Injective write := by
  intro value other same
  have found := back value
  rw [same, back] at found
  exact (Option.some.inj found).symm

theorem NodeKind.of_name_name (kind : NodeKind) : ofName? kind.name = some kind := by
  cases kind <;> decide

theorem NodeKind.name_injective : Function.Injective name := injective_of_read_back of_name_name

theorem NodeKind.name_is_label (kind : NodeKind) : IsLabel kind.name := by
  constructor <;> cases kind <;> simp [name, Unindented, Single]

namespace Outline

mutual

/-- An outline without its ranges. -/
@[simp]
def unplaced : Outline → Outline
  | .node kind _ fields => .node kind default (unplacedFields fields)

@[simp]
def unplacedFields : List OutlineField → List OutlineField
  | [] => []
  | field :: fields => unplacedField field :: unplacedFields fields

@[simp]
def unplacedField : OutlineField → OutlineField
  | .leaf label text => .leaf label text
  | .child label outline => .child label outline.unplaced
  | .children label outlines => .children label (unplacedNodes outlines)
  | .names label items => .names label items

@[simp]
def unplacedNodes : List Outline → List Outline
  | [] => []
  | outline :: outlines => outline.unplaced :: unplacedNodes outlines

end

mutual

/-- Outlines that can be read. Only the field of parameters has names, since an empty list of names
looks like an empty list of nodes. -/
def Legible : Outline → Prop
  | .node _ _ fields => LegibleFields fields

def LegibleFields : List OutlineField → Prop
  | [] => True
  | field :: fields => LegibleField field ∧ LegibleFields fields

def LegibleField : OutlineField → Prop
  | .leaf label text => IsLabel label ∧ text ≠ "[" ∧ Single text
  | .child label outline => IsLabel label ∧ outline.Legible
  | .children label outlines => IsLabel label ∧ label ≠ "parameters" ∧ LegibleNodes outlines
  | .names label _ => label = "parameters"

def LegibleNodes : List Outline → Prop
  | [] => True
  | outline :: outlines => outline.Legible ∧ LegibleNodes outlines

end

theorem line_to_list (depth : Nat) (text : String) :
    (line depth text).toList = List.replicate (2 * depth) ' ' ++ text.toList := by
  rw [line, String.toList_append, String.toList_ofList]

/-- A line shows its depth. -/
theorem line_injective {depth otherDepth : Nat} {text other : String} (unindented : Unindented text)
    (otherUnindented : Unindented other) (same : line depth text = line otherDepth other) :
    depth = otherDepth ∧ text = other := by
  have blanks (count : Nat) : ∀ char ∈ List.replicate count ' ', (char == ' ') = true :=
    fun char member => beq_iff_eq.2 (List.mem_replicate.1 member).2
  have ends {text : String} (unindented : Unindented text) :
      ∀ char ∈ text.toList.head?, (char == ' ') = false :=
    fun char head => beq_eq_false_iff_ne.2 fun blank => unindented (blank ▸ head)
  have sameChars := congrArg String.toList same
  rw [line_to_list, line_to_list] at sameChars
  obtain ⟨front, behind⟩ := Text.front_injective (blanks _) (ends unindented) (blanks _)
    (ends otherUnindented) sameChars
  have depths := congrArg List.length front
  rw [List.length_replicate, List.length_replicate] at depths
  exact ⟨by omega, String.toList_inj.1 behind⟩

/-- What the first line of a field has behind the colon. -/
def heading : OutlineField → String
  | .leaf _ text => " " ++ text
  | .child _ _ => ""
  | .children _ _ | .names _ _ => " ["

def label : OutlineField → String
  | .leaf label _ | .child label _ | .children label _ | .names label _ => label

/-- The lines of a field behind the first one. -/
def renderBelow (depth : Nat) : OutlineField → List String
  | .leaf _ _ => []
  | .child _ outline => render (depth + 1) outline
  | .children _ outlines => renderNodes (depth + 1) outlines ++ [line depth "]"]
  | .names _ items =>
      items.map (fun item => line (depth + 1) (Text.listed item)) ++ [line depth "]"]

theorem render_field_eq (depth : Nat) (field : OutlineField) :
    renderField depth field =
      line depth (label field ++ (":" ++ heading field)) :: renderBelow depth field := by
  cases field with
  | leaf label text =>
      rw [renderField, String.append_assoc, show ": " = ":" ++ " " from rfl, String.append_assoc]
      rfl
  | child label outline => rfl
  | children label outlines => rfl
  | names label items => rfl

/-- Two fields of one form, with one first line. -/
inductive SameForm : OutlineField → OutlineField → Prop where
  | leaf (label text : String) : SameForm (.leaf label text) (.leaf label text)
  | child (label : String) (outline other : Outline) :
      SameForm (.child label outline) (.child label other)
  | children (label : String) (outlines others : List Outline) :
      SameForm (.children label outlines) (.children label others)
  | names (label : String) (items others : List String) :
      SameForm (.names label items) (.names label others)

variable {depth : Nat} {field other : OutlineField} {rest more : List String}

theorem LegibleField.is_label (legible : LegibleField field) : IsLabel (label field) := by
  cases field with
  | leaf | child | children => exact legible.1
  | names label items =>
      rw [LegibleField] at legible
      rw [Outline.label, legible]
      constructor <;> simp [Unindented, Single]

theorem LegibleField.unindented (legible : LegibleField field) :
    Unindented (label field ++ (":" ++ heading field)) := by
  have start := legible.is_label.unindented
  rw [Unindented] at start ⊢
  rw [String.toList_append, String.toList_append]
  cases known : (label field).toList with
  | nil => simp
  | cons char chars => simpa [known] using start

theorem LegibleField.heads (legible : LegibleField field) (otherLegible : LegibleField other)
    (same : label field ++ (":" ++ heading field) = label other ++ (":" ++ heading other)) :
    label field = label other ∧ heading field = heading other := by
  have closed {field : OutlineField} (legible : LegibleField field) :
      ∀ char ∈ (label field).toList, (char != ':') = true :=
    fun char member => bne_iff_ne.2 fun colon => legible.is_label.closed (colon ▸ member)
  have sameChars := congrArg String.toList same
  simp only [String.toList_append] at sameChars
  obtain ⟨labels, headings⟩ := Text.front_injective (closed legible) (by simp) (closed otherLegible)
    (by simp) sameChars
  exact ⟨String.toList_inj.1 labels, String.toList_inj.1 (List.append_cancel_left headings)⟩

/-- The first lines of fields tell their forms apart. -/
theorem same_form (legible : LegibleField field) (otherLegible : LegibleField other)
    (same : label field ++ (":" ++ heading field) = label other ++ (":" ++ heading other)) :
    SameForm field other := by
  obtain ⟨labels, headings⟩ := legible.heads otherLegible same
  cases field with
  | leaf label text =>
      cases other with
      | leaf otherLabel otherText =>
          cases labels
          rw [(String.append_right_inj " ").1 headings]
          exact .leaf label otherText
      | child => simp [heading] at headings
      | children | names => exact absurd ((String.append_right_inj " ").1 headings) legible.2.1
  | child label outline =>
      cases other with
      | child otherLabel otherOutline =>
          cases labels
          exact .child label outline otherOutline
      | leaf | children | names => simp [heading] at headings
  | children label outlines =>
      cases other with
      | children otherLabel others =>
          cases labels
          exact .children label outlines others
      | leaf => exact absurd ((String.append_right_inj " ").1 headings.symm) otherLegible.2.1
      | child => simp [heading] at headings
      | names => exact absurd (labels.trans otherLegible) legible.2.1
  | names label items =>
      cases other with
      | names otherLabel others =>
          cases labels
          exact .names label items others
      | leaf => exact absurd ((String.append_right_inj " ").1 headings.symm) otherLegible.2.1
      | child => simp [heading] at headings
      | children => exact absurd (labels.symm.trans legible) otherLegible.2.1

/-- The first line, if there is one, is less deep. -/
def Outdented (depth : Nat) (lines : List String) : Prop :=
  ∀ first ∈ lines.head?, ∃ level text, first = line level text ∧ Unindented text ∧ level < depth

theorem outdented_cons {level : Nat} {text : String} (unindented : Unindented text)
    (less : level < depth) (lines : List String) : Outdented depth (line level text :: lines) := by
  intro first head
  cases head
  exact ⟨level, text, rfl, unindented, less⟩

theorem Outdented.mono {lines : List String} {deeper : Nat} (outdented : Outdented depth lines)
    (le : depth ≤ deeper) : Outdented deeper lines := by
  intro first head
  obtain ⟨level, text, same, unindented, less⟩ := outdented first head
  exact ⟨level, text, same, unindented, by omega⟩

/-- Lines that end something do not begin with a line of its depth. -/
theorem Outdented.ne_cons {lines others : List String} {text : String}
    (outdented : Outdented depth lines) (unindented : Unindented text) :
    lines ≠ line depth text :: others := by
  rintro rfl
  obtain ⟨level, other, same, otherUnindented, less⟩ := outdented _ rfl
  have depths := (line_injective unindented otherUnindented same).1
  omega

theorem outdented_nodes (nodes : List Outline) {lines : List String}
    (outdented : Outdented (depth + 1) lines) :
    Outdented (depth + 1) (renderNodes depth nodes ++ lines) := by
  cases nodes with
  | nil => exact outdented
  | cons outline nodes =>
      cases outline with
      | node kind span fields =>
          exact outdented_cons kind.name_is_label.unindented (Nat.lt_succ_self depth) _

theorem outdented_fields {fields : List OutlineField} (legible : LegibleFields fields)
    {lines : List String} (outdented : Outdented (depth + 1) lines) :
    Outdented (depth + 1) (renderFields depth fields ++ lines) := by
  cases fields with
  | nil => exact outdented
  | cons field fields =>
      rw [renderFields, render_field_eq]
      exact outdented_cons legible.1.unindented (Nat.lt_succ_self depth) _

theorem listed_unindented (text : String) : Unindented (Text.listed text) := by
  obtain ⟨⟨quote, rest, spelled, isQuote⟩, _⟩ := Text.listed_quoted text
  rw [Unindented, spelled]
  rcases isQuote with rfl | rfl <;> simp

theorem bracket_unindented : Unindented "]" := by simp [Unindented]

theorem names_injective {items others : List String} (ending : Outdented (depth + 1) rest)
    (otherEnding : Outdented (depth + 1) more)
    (same : items.map (fun item => line (depth + 1) (Text.listed item)) ++ rest =
      others.map (fun item => line (depth + 1) (Text.listed item)) ++ more) :
    items = others ∧ rest = more := by
  induction items generalizing others with
  | nil =>
      cases others with
      | nil => exact ⟨rfl, same⟩
      | cons item others => exact absurd same (ending.ne_cons (listed_unindented item))
  | cons item items induction =>
      cases others with
      | nil => exact absurd same.symm (otherEnding.ne_cons (listed_unindented item))
      | cons other others =>
          obtain ⟨first, behind⟩ := List.cons.inj same
          obtain ⟨-, listed⟩ := line_injective (listed_unindented _) (listed_unindented _) first
          obtain ⟨itemsSame, restSame⟩ := induction behind
          exact ⟨by rw [Text.listed_injective listed, itemsSame], restSame⟩

mutual

/-- What stands for a node, and what follows it. -/
theorem render_injective (outline other : Outline) (depth : Nat) {rest more : List String}
    (legible : outline.Legible) (otherLegible : other.Legible)
    (ending : Outdented (depth + 1) rest) (otherEnding : Outdented (depth + 1) more)
    (same : render depth outline ++ rest = render depth other ++ more) :
    outline.unplaced = other.unplaced ∧ rest = more := by
  cases outline with
  | node kind span fields =>
      cases other with
      | node otherKind otherSpan others =>
          obtain ⟨first, behind⟩ := List.cons.inj same
          obtain ⟨-, names⟩ := line_injective kind.name_is_label.unindented
            otherKind.name_is_label.unindented first
          obtain ⟨fieldsSame, restSame⟩ :=
            render_fields_injective fields others (depth + 1) legible otherLegible ending otherEnding
              behind
          rw [unplaced, unplaced, NodeKind.name_injective names, fieldsSame]
          exact ⟨rfl, restSame⟩
termination_by structural outline

theorem render_fields_injective (fields others : List OutlineField) (depth : Nat)
    {rest more : List String} (legible : LegibleFields fields) (otherLegible : LegibleFields others)
    (ending : Outdented depth rest) (otherEnding : Outdented depth more)
    (same : renderFields depth fields ++ rest = renderFields depth others ++ more) :
    unplacedFields fields = unplacedFields others ∧ rest = more := by
  cases fields with
  | nil =>
      cases others with
      | nil => exact ⟨rfl, same⟩
      | cons field others =>
          rw [renderFields, renderFields, render_field_eq] at same
          exact absurd same (ending.ne_cons otherLegible.1.unindented)
  | cons field fields =>
      cases others with
      | nil =>
          rw [renderFields, renderFields, render_field_eq] at same
          exact absurd same.symm (otherEnding.ne_cons legible.1.unindented)
      | cons other others =>
          rw [renderFields, renderFields, List.append_assoc, List.append_assoc] at same
          have wider := ending.mono (Nat.le_succ depth)
          have otherWider := otherEnding.mono (Nat.le_succ depth)
          obtain ⟨fieldSame, behind⟩ := render_field_injective field other depth legible.1
            otherLegible.1 (outdented_fields legible.2 wider)
            (outdented_fields otherLegible.2 otherWider) same
          obtain ⟨fieldsSame, restSame⟩ := render_fields_injective fields others depth legible.2
            otherLegible.2 ending otherEnding behind
          rw [unplacedFields, unplacedFields, fieldSame, fieldsSame]
          exact ⟨rfl, restSame⟩
termination_by structural fields

theorem render_field_injective (field other : OutlineField) (depth : Nat) {rest more : List String}
    (legible : LegibleField field) (otherLegible : LegibleField other)
    (ending : Outdented (depth + 1) rest) (otherEnding : Outdented (depth + 1) more)
    (same : renderField depth field ++ rest = renderField depth other ++ more) :
    unplacedField field = unplacedField other ∧ rest = more := by
  rw [render_field_eq, render_field_eq, List.cons_append, List.cons_append] at same
  obtain ⟨first, behind⟩ := List.cons.inj same
  obtain ⟨-, heads⟩ := line_injective legible.unindented otherLegible.unindented first
  have form := same_form legible otherLegible heads
  have closing (lines : List String) : Outdented (depth + 1) (line depth "]" :: lines) :=
    outdented_cons bracket_unindented (Nat.lt_succ_self depth) lines
  cases field with
  | leaf label text =>
      cases form
      exact ⟨rfl, behind⟩
  | child label outline =>
      cases other with
      | child otherLabel otherOutline =>
          cases form
          obtain ⟨outlineSame, restSame⟩ := render_injective outline otherOutline (depth + 1)
            legible.2 otherLegible.2 (ending.mono (Nat.le_succ _))
            (otherEnding.mono (Nat.le_succ _)) behind
          rw [unplacedField, unplacedField, outlineSame]
          exact ⟨rfl, restSame⟩
      | leaf | children | names => exact nomatch form
  | children label outlines =>
      cases other with
      | children otherLabel others =>
          cases form
          rw [renderBelow, renderBelow, List.append_assoc, List.append_assoc] at behind
          obtain ⟨outlinesSame, bracket⟩ := render_nodes_injective outlines others (depth + 1)
            legible.2.2 otherLegible.2.2 (closing _) (closing _) behind
          rw [unplacedField, unplacedField, outlinesSame]
          exact ⟨rfl, (List.cons.inj bracket).2⟩
      | leaf | child | names => exact nomatch form
  | names label items =>
      cases other with
      | names otherLabel others =>
          cases form
          rw [renderBelow, renderBelow, List.append_assoc, List.append_assoc] at behind
          obtain ⟨itemsSame, bracket⟩ := names_injective (closing _) (closing _) behind
          rw [itemsSame]
          exact ⟨rfl, (List.cons.inj bracket).2⟩
      | leaf | child | children => exact nomatch form
termination_by structural field

theorem render_nodes_injective (outlines others : List Outline) (depth : Nat)
    {rest more : List String} (legible : LegibleNodes outlines) (otherLegible : LegibleNodes others)
    (ending : Outdented depth rest) (otherEnding : Outdented depth more)
    (same : renderNodes depth outlines ++ rest = renderNodes depth others ++ more) :
    unplacedNodes outlines = unplacedNodes others ∧ rest = more := by
  cases outlines with
  | nil =>
      cases others with
      | nil => exact ⟨rfl, same⟩
      | cons outline others =>
          cases outline with
          | node kind span fields =>
              exact absurd same (ending.ne_cons kind.name_is_label.unindented)
  | cons outline outlines =>
      cases others with
      | nil =>
          cases outline with
          | node kind span fields =>
              exact absurd same.symm (otherEnding.ne_cons kind.name_is_label.unindented)
      | cons other others =>
          rw [renderNodes, renderNodes, List.append_assoc, List.append_assoc] at same
          have wider := ending.mono (Nat.le_succ depth)
          have otherWider := otherEnding.mono (Nat.le_succ depth)
          obtain ⟨outlineSame, behind⟩ := render_injective outline other depth legible.1
            otherLegible.1 (outdented_nodes outlines wider) (outdented_nodes others otherWider) same
          obtain ⟨outlinesSame, restSame⟩ := render_nodes_injective outlines others depth legible.2
            otherLegible.2 ending otherEnding behind
          rw [unplacedNodes, unplacedNodes, outlineSame, outlinesSame]
          exact ⟨rfl, restSame⟩
termination_by structural outlines

end

theorem line_single {text : String} (single : Single text) (depth : Nat) :
    Single (line depth text) := by
  rw [Single, line_to_list, List.mem_append, not_or]
  exact ⟨fun member => (by cases (List.mem_replicate.1 member).2), single⟩

theorem bracket_single : Single "]" := by simp [Single]

theorem LegibleField.heading_single (legible : LegibleField field) :
    Single (label field ++ (":" ++ heading field)) := by
  have labelSingle := legible.is_label.single
  cases field with
  | leaf label text => simpa [Single, heading] using ⟨labelSingle, legible.2.2⟩
  | child | children | names => simpa [Single, heading] using labelSingle

mutual

theorem render_single (outline : Outline) (depth : Nat) (legible : outline.Legible) :
    ∀ text ∈ render depth outline, Single text := by
  cases outline with
  | node kind span fields =>
      exact List.forall_mem_cons.2 ⟨line_single kind.name_is_label.single depth,
        render_fields_single fields (depth + 1) legible⟩
termination_by structural outline

theorem render_fields_single (fields : List OutlineField) (depth : Nat)
    (legible : LegibleFields fields) : ∀ text ∈ renderFields depth fields, Single text := by
  cases fields with
  | nil => exact List.forall_mem_nil _
  | cons field fields =>
      exact List.forall_mem_append.2 ⟨render_field_single field depth legible.1,
        render_fields_single fields depth legible.2⟩
termination_by structural fields

theorem render_field_single (field : OutlineField) (depth : Nat) (legible : LegibleField field) :
    ∀ text ∈ renderField depth field, Single text := by
  rw [render_field_eq]
  refine List.forall_mem_cons.2 ⟨line_single legible.heading_single depth, ?_⟩
  have closing : ∀ text ∈ [line depth "]"], Single text :=
    List.forall_mem_singleton.2 (line_single bracket_single depth)
  cases field with
  | leaf label text => exact List.forall_mem_nil _
  | child label outline => exact render_single outline (depth + 1) legible.2
  | children label outlines =>
      exact List.forall_mem_append.2
        ⟨render_nodes_single outlines (depth + 1) legible.2.2, closing⟩
  | names label items =>
      refine List.forall_mem_append.2 ⟨List.forall_mem_map.2 fun item _ => ?_, closing⟩
      exact line_single (Text.listed_quoted item).2 (depth + 1)
termination_by structural field

theorem render_nodes_single (outlines : List Outline) (depth : Nat)
    (legible : LegibleNodes outlines) : ∀ text ∈ renderNodes depth outlines, Single text := by
  cases outlines with
  | nil => exact List.forall_mem_nil _
  | cons outline outlines =>
      exact List.forall_mem_append.2 ⟨render_single outline depth legible.1,
        render_nodes_single outlines depth legible.2⟩
termination_by structural outlines

end

mutual

/-- Ranges are not shown. -/
theorem render_unplaced (outline : Outline) (depth : Nat) :
    render depth outline.unplaced = render depth outline := by
  cases outline with
  | node kind span fields =>
      rw [unplaced, render, render, render_fields_unplaced fields (depth + 1)]
termination_by structural outline

theorem render_fields_unplaced (fields : List OutlineField) (depth : Nat) :
    renderFields depth (unplacedFields fields) = renderFields depth fields := by
  cases fields with
  | nil => rfl
  | cons field fields =>
      rw [unplacedFields, renderFields, renderFields, render_field_unplaced field depth,
        render_fields_unplaced fields depth]
termination_by structural fields

theorem render_field_unplaced (field : OutlineField) (depth : Nat) :
    renderField depth (unplacedField field) = renderField depth field := by
  cases field with
  | leaf label text => rfl
  | child label outline =>
      rw [unplacedField, renderField, renderField, render_unplaced outline (depth + 1)]
  | children label outlines =>
      rw [unplacedField, renderField, renderField, render_nodes_unplaced outlines (depth + 1)]
  | names label items => rfl
termination_by structural field

theorem render_nodes_unplaced (outlines : List Outline) (depth : Nat) :
    renderNodes depth (unplacedNodes outlines) = renderNodes depth outlines := by
  cases outlines with
  | nil => rfl
  | cons outline outlines =>
      rw [unplacedNodes, renderNodes, renderNodes, render_unplaced outline depth,
        render_nodes_unplaced outlines depth]
termination_by structural outlines

end

/-- The lines of a text that is joined with line feeds. -/
theorem split_on_intercalate {lines : List String} (some : lines ≠ [])
    (single : ∀ text ∈ lines, Single text) :
    List.splitOn '\n' ("\n".intercalate lines).toList = lines.map String.toList := by
  rw [String.toList_intercalate]
  exact List.splitOn_intercalate '\n' (List.forall_mem_map.2 single) (by simpa using some)

theorem text_unplaced (outline : Outline) : outline.unplaced.text = outline.text := by
  rw [text, render_unplaced, ← text]

/-- The text of a legible outline determines the outline, up to ranges. -/
theorem text_injective {outline other : Outline} (legible : outline.Legible)
    (otherLegible : other.Legible) (same : outline.text = other.text) :
    outline.unplaced = other.unplaced := by
  have some (outline : Outline) : render 0 outline ≠ [] := by
    cases outline
    exact List.cons_ne_nil _ _
  have lines := split_on_intercalate (some outline) (render_single outline 0 legible)
  have otherLines := split_on_intercalate (some other) (render_single other 0 otherLegible)
  rw [← text] at lines otherLines
  rw [same, otherLines] at lines
  have rendered : render 0 outline = render 0 other :=
    (List.map_injective_iff.2 fun _ _ chars => String.toList_inj.1 chars) lines.symm
  have nothing : Outdented (0 + 1) [] := fun first head => (by cases head)
  exact (render_injective outline other 0 legible otherLegible nothing nothing
    (congrArg (· ++ []) rendered)).1

end Outline

end LayoutScript
