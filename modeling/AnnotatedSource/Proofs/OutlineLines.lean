import AnnotatedSource.Proofs.Covering
import AnnotatedSource.Proofs.Outlines

set_option autoImplicit false

namespace AnnotatedSource

namespace Forest

structure Seat where
  earlier : Forest
  node : Node
  later : Forest

/-- A node below its ancestors, the outermost of them first. -/
structure Lineage where
  ancestors : List Seat
  own : Seat

/-- Each seat is among the children of the one before it, and the first among the roots. -/
def Leads : Forest → List Seat → Prop
  | _, [] => True
  | level, seat :: path => seat.earlier ++ seat.node :: seat.later = level ∧ Leads seat.node.children path

mutual

def lineagesNode (ancestors : List Seat) (earlier later : Forest) : Node → List Lineage
  | ⟨span, tags, children⟩ =>
    let own : Seat := ⟨earlier, ⟨span, tags, children⟩, later⟩
    ⟨ancestors, own⟩ :: lineagesFrom (ancestors ++ [own]) [] children

def lineagesFrom (ancestors : List Seat) (earlier : Forest) : Forest → List Lineage
  | [] => []
  | n :: rest => lineagesNode ancestors earlier rest n ++ lineagesFrom ancestors (earlier ++ [n]) rest

end

def lineages (forest : Forest) : List Lineage := lineagesFrom [] [] forest

variable {ancestors : List Seat} {earlier level forest : Forest}

theorem lineagesFrom_cons (n : Node) (rest : Forest) : lineagesFrom ancestors earlier (n :: rest) =
    ⟨ancestors, earlier, n, rest⟩ :: (lineagesFrom (ancestors ++ [⟨earlier, n, rest⟩]) [] n.children ++
      lineagesFrom ancestors (earlier ++ [n]) rest) := by
  obtain ⟨span, tags, children⟩ := n
  simp [lineagesFrom, lineagesNode]

theorem map_lineagesFrom : (lineagesFrom ancestors earlier level).map
    (fun lineage => (lineage.ancestors.length, lineage.own.node)) = preorderFrom ancestors.length level := by
  induction level using induction generalizing ancestors earlier with
  | nil => rfl
  | cons n rest below ahead =>
    rw [lineagesFrom_cons, List.map_cons, List.map_append, below, ahead]
    obtain ⟨span, tags, children⟩ := n
    simp [preorderFrom, preorderNode]

theorem map_lineages (forest : Forest) : (lineages forest).map
    (fun lineage => (lineage.ancestors.length, lineage.own.node)) = preorder forest :=
  map_lineagesFrom

theorem leads_of_mem_lineagesFrom (reached : ∀ path, Leads (earlier ++ level) path → Leads forest (ancestors ++ path))
    {lineage : Lineage} (h : lineage ∈ lineagesFrom ancestors earlier level) :
    Leads forest (lineage.ancestors ++ [lineage.own]) := by
  induction level using induction generalizing ancestors earlier with
  | nil => simp [lineagesFrom] at h
  | cons n rest below ahead =>
    rw [lineagesFrom_cons, List.mem_cons, List.mem_append] at h
    rcases h with rfl | inside | later
    · exact reached [⟨earlier, n, rest⟩] ⟨rfl, trivial⟩
    · refine below (fun path hpath => ?_) inside
      rw [List.append_assoc]
      exact reached (⟨earlier, n, rest⟩ :: path) ⟨rfl, hpath⟩
    · refine ahead (fun path hpath => reached path ?_) later
      simpa using hpath

theorem leads_of_mem_lineages {lineage : Lineage} (h : lineage ∈ lineages forest) :
    Leads forest (lineage.ancestors ++ [lineage.own]) :=
  leads_of_mem_lineagesFrom (fun _ hpath => hpath) h

end Forest

namespace Text

theorem newline_ne_hexDigit (n : Nat) : '\n' ≠ hexDigit n := by
  unfold hexDigit
  split <;> decide

theorem newline_not_mem_escapeChar (c : Char) : '\n' ∉ Quoted.escapeChar c := by
  by_cases hc : c = '\n'
  · subst hc
    decide
  unfold Quoted.escapeChar
  split <;> try decide
  split
  · simp [newline_ne_hexDigit]
  · simpa using Ne.symm hc

theorem newline_not_mem_quote (s : String) : '\n' ∉ (quote s).toList := by
  simp [quote, Quoted.encode, newline_not_mem_escapeChar]

end Text

theorem Span.newline_not_mem_text (s : Span) : '\n' ∉ s.text.toList := by
  simp only [text, String.toList_append, List.mem_append, not_or]
  exact ⟨⟨Text.not_mem_repr (by decide) _, by decide⟩, Text.not_mem_repr (by decide) _⟩

theorem Position.newline_not_mem_text (p : Position) : '\n' ∉ p.text.toList := by
  simp only [text, String.toList_append, List.mem_append, not_or]
  exact ⟨⟨Text.not_mem_repr (by decide) _, by decide⟩, Text.not_mem_repr (by decide) _⟩

namespace Tag

theorem newline_not_mem_describe (tag : Tag) : '\n' ∉ tag.describe.toList := by
  have quoted (value : Option String) : '\n' ∉ (quoteName value).toList := by
    cases value with
    | none => decide
    | some name => exact Text.newline_not_mem_quote name
  have labelled : ∀ label ∈ labels, '\n' ∉ label.toList := by decide +kernel
  rw [describe_eq, String.toList_append, List.mem_append, not_or]
  refine ⟨labelled _ (label_mem tag), ?_⟩
  cases tag with
  | specifier value | exportedName value | localName value => exact quoted value
  | statement form => cases form <;> decide
  | assertion | dynamicKeyword => decide

theorem newline_not_mem_descriptions (tags : List Tag) : '\n' ∉ descriptions tags := by
  cases tags with
  | nil => decide
  | cons tag tags => simp [descriptions_cons, following, newline_not_mem_describe]

end Tag

namespace Outline

open Forest (Seat Lineage)

/-- What stands below a seat on the lines of its descendants. -/
def group (seat : Seat) : List Char := if seat.later ≠ [] then ['│', ' ', ' '] else [' ', ' ', ' ']

def corner (seat : Seat) : List Char := if seat.later = [] then ['└', '─'] else ['├', '─']

def legend (source : List Char) (n : Node) : String :=
  " " ++ n.span.text ++ " @" ++ ((OffsetTable.ofText source).position n.span.start).text ++ " " ++
    String.intercalate "; " (n.tags.map Tag.describe) ++ " ⟨"

def unbroken (text : List Char) : List Char := text.map fun c => if c = '\n' then '↵' else c

def cut (width : Nat) (text : List Char) : List Char :=
  if text.length ≤ width then text else text.take width ++ ['.', '.', '.']

/-- The line of a node, whose text the source has. -/
def Drawn (source : List Char) (width : Nat) (lineage : Lineage) (row : List Char) : Prop :=
  ∃ text, Text.slice? source lineage.own.node.span = some text ∧
    row = lineage.ancestors.flatMap group ++ corner lineage.own ++ (legend source lineage.own.node).toList ++
      cut width (unbroken text) ++ ['⟩']

def joined (rows : List (List Char)) : List Char := rows.flatMap (· ++ ['\n'])

variable {source : List Char} {width : Nat} {rows : List (List Char)}

theorem newline_not_mem_legend (source : List Char) (n : Node) : '\n' ∉ (legend source n).toList := by
  have described := Tag.newline_not_mem_descriptions n.tags
  rw [Tag.descriptions] at described
  simp [legend, Span.newline_not_mem_text, Position.newline_not_mem_text, described, -String.toList_intercalate]

theorem excerpt_eq {text : List Char} {span : Span} (h : Text.slice? source span = some text) :
    excerpt source width span = cut width (unbroken text) := by
  rw [excerpt, h, Option.getD_some, shorten, cut, unbroken]
  by_cases fits : (text.map fun c => if c = '\n' then '↵' else c).length ≤ width
  · rw [if_neg (Nat.not_lt.2 fits), if_pos fits]
  · rw [if_pos (Nat.not_le.1 fits), if_neg fits]

theorem Drawn.newline_not_mem {lineage : Lineage} {row : List Char} (h : Drawn source width lineage row) :
    '\n' ∉ row := by
  obtain ⟨text, slice, rfl⟩ := h
  have excerpt := newline_not_mem_excerpt source width lineage.own.node.span
  rw [excerpt_eq slice] at excerpt
  have groups (seat : Seat) : '\n' ∉ group seat := by unfold group; split <;> decide
  have corners : '\n' ∉ corner lineage.own := by unfold corner; split <;> decide
  simp [groups, corners, newline_not_mem_legend, excerpt]

theorem connector_eq (earlier rest : Forest) (n : Node) :
    (connector rest.isEmpty).toList = corner ⟨earlier, n, rest⟩ := by
  cases rest <;> simp [connector, corner]

theorem bar_eq (earlier rest : Forest) (n : Node) : (bar rest.isEmpty).toList = group ⟨earlier, n, rest⟩ := by
  cases rest <;> simp [bar, group]

theorem line_eq {ancestors : List Seat} {stem : String} (hstem : stem.toList = ancestors.flatMap group)
    (earlier rest : Forest) {n : Node} {text : List Char} (slice : Text.slice? source n.span = some text) :
    (line ⟨source, .ofText source, width⟩ stem rest.isEmpty n.span n.tags).toList =
      ancestors.flatMap group ++ corner ⟨earlier, n, rest⟩ ++ (legend source n).toList ++
        cut width (unbroken text) ++ ['⟩'] ++ ['\n'] := by
  simp [line, hstem, connector_eq earlier rest n, excerpt_eq slice, legend]

theorem forest_rows {level : Forest} (ancestors : List Seat) (earlier : Forest) (width : Nat) {stem : String}
    (hstem : stem.toList = ancestors.flatMap group)
    (fits : ∀ n ∈ Forest.nodes level, ∃ text, Text.slice? source n.span = some text) :
    ∃ rows, (forest ⟨source, .ofText source, width⟩ stem level).toList = joined rows ∧
      List.Forall₂ (Drawn source width) (Forest.lineagesFrom ancestors earlier level) rows := by
  induction level using Forest.induction generalizing ancestors earlier stem with
  | nil => exact ⟨[], rfl, .nil⟩
  | cons n rest below ahead =>
    obtain ⟨text, slice⟩ := fits n (by simp)
    -- the stem has a group for each ancestor, so one more on the level below
    have deeper : (stem ++ bar rest.isEmpty).toList = (ancestors ++ [(⟨earlier, n, rest⟩ : Seat)]).flatMap group := by
      simp [hstem, bar_eq earlier rest n]
    obtain ⟨inside, hinside, drawnInside⟩ := below _ [] deeper fun m hm => fits m (by simp [hm])
    obtain ⟨later, hlater, drawnLater⟩ := ahead _ (earlier ++ [n]) hstem fun m hm => fits m (by simp [hm])
    rw [Forest.lineagesFrom_cons, forest_cons_toList, hinside, hlater, line_eq hstem earlier rest slice]
    exact ⟨_ :: (inside ++ later), by simp [joined],
      .cons ⟨text, slice, rfl⟩ (List.rel_append drawnInside drawnLater)⟩

theorem count_joined (free : ∀ row ∈ rows, '\n' ∉ row) : (joined rows).count '\n' = rows.length := by
  induction rows with
  | nil => rfl
  | cons row rows ih =>
    have lines := ih fun other hother => free other (List.mem_cons_of_mem row hother)
    have plain : row.count '\n' = 0 := List.count_eq_zero.2 (free row List.mem_cons_self)
    rw [joined, List.flatMap_cons, List.count_append, ← joined, lines, List.count_append, plain]
    simp [Nat.add_comm]

theorem getLast?_joined (row : List Char) (rows : List (List Char)) :
    (joined (row :: rows)).getLast? = some '\n' := by
  induction rows generalizing row with
  | nil => simp [joined]
  | cons next rows ih =>
    rw [joined, List.flatMap_cons, ← joined, List.getLast?_append, ih next]
    rfl

theorem header_row (a : Annotated) : ∃ row, (header a).toList = row ++ ['\n'] ∧ '\n' ∉ row := by
  have flag (b : Bool) : '\n' ∉ (Text.ofBool b).toList := by cases b <;> decide
  have syntaxFlag (b : Option Bool) : '\n' ∉ (known b).toList := by rcases b with _ | _ | _ <;> decide
  refine ⟨("⧉ module (facade: " ++ Text.ofBool a.facade ++ ", hasModuleSyntax: " ++ known a.moduleSyntax ++
    ")").toList, by simp [header_eq], ?_⟩
  simp [flag, syntaxFlag]

/-- An outline has a line for its header and then one for each node in preorder, on which a bar group stands
    for each ancestor that has a later sibling. -/
theorem render_rows {a : Annotator} {source : String} {r : Recording} {result : Annotated}
    (h : a.annotate source r = .ok result) (width : Nat) :
    ∃ top rows, (render width result).toList = joined (top :: rows) ∧ (header result).toList = top ++ ['\n'] ∧
      (∀ row ∈ top :: rows, '\n' ∉ row) ∧ (render width result).toList.getLast? = some '\n' ∧
      (render width result).toList.count '\n' = 1 + result.forest.size ∧
      (Forest.lineages result.forest).map (fun lineage => (lineage.ancestors.length, lineage.own.node)) =
        result.forest.preorder ∧
      (∀ lineage ∈ Forest.lineages result.forest,
        Forest.Leads result.forest (lineage.ancestors ++ [lineage.own])) ∧
      List.Forall₂ (Drawn source.toList width) (Forest.lineages result.forest) rows := by
  obtain ⟨rfl, -, -, -, placed, -, -⟩ := Annotator.annotate_isWellFormed h
  have fits : ∀ n ∈ Forest.nodes result.forest, ∃ text, Text.slice? result.source.toList n.span = some text := by
    intro n hn
    obtain ⟨upright, bound, starts, stops, -⟩ := placed n hn
    exact Option.isSome_iff_exists.1 (Text.slice?_isSome_iff_fits.2 ⟨upright, bound, starts, stops⟩)
  obtain ⟨rows, lines, drawn⟩ := forest_rows [] [] width (by rfl : "".toList = _) fits
  obtain ⟨top, htop, plain⟩ := header_row result
  have whole : (render width result).toList = joined (top :: rows) := by
    rw [render, String.toList_append, htop, lines, joined, joined, List.flatMap_cons]
  have free : ∀ row ∈ top :: rows, '\n' ∉ row := by
    intro row hrow
    rcases List.mem_cons.1 hrow with rfl | hrow
    · exact plain
    · obtain ⟨i, hi, rfl⟩ := List.mem_iff_getElem.1 hrow
      exact ((List.forall₂_iff_get.1 drawn).2 i (drawn.length_eq ▸ hi) hi).newline_not_mem
  have length : rows.length = result.forest.size := by
    rw [← drawn.length_eq, Forest.size_eq_length, Forest.nodes, ← Forest.map_lineages, List.length_map, List.length_map]
    rfl
  refine ⟨top, rows, whole, htop, free, ?_, ?_, Forest.map_lineages _, fun _ => Forest.leads_of_mem_lineages, drawn⟩
  · rw [whole]
    exact getLast?_joined top rows
  · rw [whole, count_joined free, List.length_cons, length, Nat.add_comm]

def twoImports : Recording :=
  ⟨[⟨some "m", 8, 9, 0, 10, -1, -1⟩, ⟨some "n\n", 19, 22, 11, 23, 11, -1⟩], .list [], false, some true⟩

theorem render_rows_twoImports : ∃ result top rows,
    ({} : Annotator).annotate "import 'm'\nimport(\n'n')" twoImports = .ok result ∧ result.forest.size = 5 ∧
    (render 9 result).toList = joined (top :: rows) ∧ (∀ row ∈ top :: rows, '\n' ∉ row) ∧
    (render 9 result).toList.count '\n' = 1 + result.forest.size ∧
    List.Forall₂ (Drawn "import 'm'\nimport(\n'n')".toList 9) (Forest.lineages result.forest) rows := by
  obtain ⟨result, h⟩ : ∃ result, ({} : Annotator).annotate "import 'm'\nimport(\n'n')" twoImports = .ok result :=
    ⟨_, rfl⟩
  have size : (({} : Annotator).annotate "import 'm'\nimport(\n'n')" twoImports).toOption.map (·.forest.size) =
      some 5 := by
    decide +kernel
  rw [h] at size
  obtain ⟨top, rows, lines, -, free, -, count, -, -, drawn⟩ := render_rows h 9
  exact ⟨result, top, rows, h, Option.some.inj size, lines, free, count, drawn⟩

end Outline
end AnnotatedSource
