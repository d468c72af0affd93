import AnnotatedSource.Proofs.Covering
import AnnotatedSource.Proofs.Escaping

set_option autoImplicit false

/-!
# Markup, read back

What a reader of the markup sees: elements, which open and close, and the characters between them. Without
the elements and with its entities read, the text is that of the segments, and the elements are nested as
the annotated segments are.
-/
namespace AnnotatedSource.Markup

inductive Piece where
  | opening (kinds : List Char)
  | closing
  | character (c : Char)
deriving DecidableEq, Repr

def Piece.character? : Piece → Option Char
  | character c => some c
  | _ => none

def tagStart : List Char := "<chunk type=\"".toList

def tagStop : List Char := "\">".toList

def tag? (text : List Char) : Option (Piece × Nat) :=
  if closeTag.toList.isPrefixOf text then some (.closing, closeTag.toList.length)
  else
    match text.dropPrefix? tagStart with
    | some rest =>
      let kinds := rest.takeWhile (· != '"')
      if tagStop.isPrefixOf (rest.dropWhile (· != '"')) then
        some (.opening kinds, (tagStart ++ kinds ++ tagStop).length)
      else none
    | none => none

def pieces (text : List Char) : List Piece := Text.scan tag? .character 0 text

def strip (text : List Char) : List Char := (pieces text).filterMap Piece.character?

/-- The kinds of each element with its depth, outer ones first; none if an element is closed that is not
    open, or left open. -/
def outlineFrom : Nat → List Piece → Option (List (Nat × List Char))
  | 0, [] => some []
  | _ + 1, [] => none
  | depth, .opening kinds :: rest => (outlineFrom (depth + 1) rest).map ((depth, kinds) :: ·)
  | 0, .closing :: _ => none
  | depth + 1, .closing :: rest => outlineFrom depth rest
  | depth, .character _ :: rest => outlineFrom depth rest

def body? (text : List Char) : Option (List Char) :=
  ((text.dropWhile (· != '\n')).drop 1).dropSuffix? footer.toList

def annotatedKinds? : Nat × Segment → Option (Nat × List Char)
  | (depth, .annotated _ tags _) => some (depth, (Tag.kinds tags).toList)
  | (_, .text _) => none

theorem closeTag_toList : closeTag.toList = '<' :: '/' :: "chunk>".toList := rfl

theorem tagStart_eq : tagStart = '<' :: 'c' :: "hunk type=\"".toList := rfl

theorem openTag_toList (tags : List Tag) :
    (openTag tags).toList = tagStart ++ (Tag.kinds tags).toList ++ tagStop := by
  rw [openTag, String.toList_append, String.toList_append]
  rfl

theorem bne_of_not_mem {mark : Char} {text : List Char} (h : mark ∉ text) : ∀ c ∈ text, (c != mark) = true := by
  intro c hc
  rw [bne_iff_ne]
  rintro rfl
  exact h hc

theorem tag?_of_ne {c : Char} (h : c ≠ '<') (text : List Char) : tag? (c :: text) = none := by
  have close : closeTag.toList.isPrefixOf (c :: text) = false := by
    rw [closeTag_toList, List.isPrefixOf_cons_cons, beq_eq_false_iff_ne.2 h.symm, Bool.false_and]
  have start : (c :: text).dropPrefix? tagStart = none := by
    rw [tagStart_eq, List.dropPrefix?, beq_eq_false_iff_ne.2 h]
    rfl
  rw [tag?, close, start]
  rfl

theorem tag?_closeTag (text : List Char) :
    tag? (closeTag.toList ++ text) = some (.closing, closeTag.toList.length) := by
  have close : closeTag.toList.isPrefixOf (closeTag.toList ++ text) = true := by
    simp [List.isPrefixOf_iff_prefix]
  rw [tag?, if_pos close]

theorem tag?_opening {kinds : List Char} (h : '"' ∉ kinds) (text : List Char) :
    tag? (tagStart ++ kinds ++ tagStop ++ text) =
      some (.opening kinds, (tagStart ++ kinds ++ tagStop).length) := by
  have close : closeTag.toList.isPrefixOf (tagStart ++ kinds ++ tagStop ++ text) = false := by
    rw [closeTag_toList, tagStart_eq]
    simp only [List.cons_append, List.isPrefixOf_cons_cons, show ('/' == 'c') = false from rfl, Bool.false_and,
      Bool.and_false]
  have start : (tagStart ++ kinds ++ tagStop ++ text).dropPrefix? tagStart = some (kinds ++ (tagStop ++ text)) := by
    rw [List.append_assoc, List.append_assoc]
    exact List.dropPrefix?_append_of_beq _ (by simp)
  have taken : (kinds ++ (tagStop ++ text)).takeWhile (· != '"') = kinds := by
    rw [List.takeWhile_append_of_pos (bne_of_not_mem h)]
    simp [tagStop]
  have dropped : (kinds ++ (tagStop ++ text)).dropWhile (· != '"') = tagStop ++ text := by
    rw [List.dropWhile_append_of_pos (bne_of_not_mem h)]
    simp [tagStop]
  have stop : tagStop.isPrefixOf (tagStop ++ text) = true := by
    simp [List.isPrefixOf_iff_prefix]
  rw [tag?, close, start]
  simp only [taken, dropped, stop, if_true, Bool.false_eq_true, if_false]

theorem quote_not_mem_kinds (tags : List Tag) : '"' ∉ (Tag.kinds tags).toList := by
  rw [Tag.kinds, String.toList_intercalate]
  induction tags with
  | nil => simp [List.intercalate]
  | cons tag tags ih =>
    have hkind : '"' ∉ tag.kind.toList := by cases tag <;> simp [Tag.kind]
    cases tags with
    | nil => simpa using hkind
    | cons next tags =>
      rw [List.map_cons, List.map_cons, List.map_cons, List.map_cons, List.intercalate_cons_cons]
      simpa [hkind] using ih

mutual

def segmentPieces (source : List Char) : Segment → List Piece
  | .text span => (escape ((Text.slice? source span).getD [])).map .character
  | .annotated _ tags children =>
    .opening (Tag.kinds tags).toList :: (segmentsPieces source children ++ [.closing])

def segmentsPieces (source : List Char) : List Segment → List Piece
  | [] => []
  | s :: rest => segmentPieces source s ++ segmentsPieces source rest

end

theorem pieces_escape (inner text : List Char) :
    pieces (escape inner ++ text) = (escape inner).map .character ++ pieces text := by
  refine Text.scan_plain_append fun c hc => tag?_of_ne ?_
  rintro rfl
  exact not_mem_escape (by decide) inner hc

theorem pieces_openTag (tags : List Tag) (text : List Char) :
    pieces ((openTag tags).toList ++ text) = .opening (Tag.kinds tags).toList :: pieces text := by
  rw [openTag_toList]
  exact Text.scan_item (by simp [tagStop]) (tag?_opening (quote_not_mem_kinds tags) text)

theorem pieces_closeTag (text : List Char) : pieces (closeTag.toList ++ text) = .closing :: pieces text :=
  Text.scan_item (by simp [closeTag_toList]) (tag?_closeTag text)

variable {source : List Char} {segs : List Segment} {body : List Char}

theorem segment_text_eq_ok {span : Span} : segment source (.text span) = .ok body ↔
    ∃ text, Text.slice? source span = some text ∧ body = escape text := by
  rw [segment]
  cases Text.slice? source span <;> simp [eq_comm]

theorem segment_annotated_eq_ok {span : Span} {tags : List Tag} {children : List Segment} :
    segment source (.annotated span tags children) = .ok body ↔
      ∃ inner, segments source children = .ok inner ∧
        body = (openTag tags).toList ++ inner ++ closeTag.toList := by
  simp only [segment, bind_eq_ok, pure_eq_ok]

theorem segments_cons_eq_ok {s : Segment} : segments source (s :: segs) = .ok body ↔
    ∃ first others, segment source s = .ok first ∧ segments source segs = .ok others ∧ body = first ++ others := by
  simp only [segments, bind_eq_ok, pure_eq_ok, exists_and_left]

theorem exists_segments_iff : (∃ body, segments source segs = .ok body) ↔
    ∀ span ∈ Segment.texts segs, Text.Fits source span := by
  induction segs using Segment.induction with
  | nil => simp [segments]
  | text span rest ih =>
    rw [Segment.texts_text, List.forall_mem_cons, ← ih, ← Text.slice?_isSome_iff_fits, Option.isSome_iff_exists]
    simp only [segments_cons_eq_ok, segment_text_eq_ok]
    constructor
    · rintro ⟨_, _, others, ⟨text, htext, rfl⟩, hothers, rfl⟩
      exact ⟨⟨text, htext⟩, others, hothers⟩
    · rintro ⟨⟨text, htext⟩, others, hothers⟩
      exact ⟨_, _, others, ⟨text, htext, rfl⟩, hothers, rfl⟩
  | annotated span tags children rest below ahead =>
    rw [Segment.texts_annotated, List.forall_mem_append, ← below, ← ahead]
    simp only [segments_cons_eq_ok, segment_annotated_eq_ok]
    constructor
    · rintro ⟨_, _, others, ⟨inner, hinner, rfl⟩, hothers, rfl⟩
      exact ⟨⟨inner, hinner⟩, others, hothers⟩
    · rintro ⟨⟨inner, hinner⟩, others, hothers⟩
      exact ⟨_, _, others, ⟨inner, hinner, rfl⟩, hothers, rfl⟩

theorem pieces_segments (h : segments source segs = .ok body) (text : List Char) :
    pieces (body ++ text) = segmentsPieces source segs ++ pieces text := by
  -- for any text behind it, since the markup of the children goes on with a closing tag
  induction segs using Segment.induction generalizing body text with
  | nil =>
    cases h
    rfl
  | text span rest ih =>
    obtain ⟨_, others, hfirst, hothers, rfl⟩ := segments_cons_eq_ok.1 h
    obtain ⟨inner, hinner, rfl⟩ := segment_text_eq_ok.1 hfirst
    rw [List.append_assoc, pieces_escape, ih hothers]
    simp [segmentsPieces, segmentPieces, hinner]
  | annotated span tags children rest below ahead =>
    obtain ⟨_, others, hfirst, hothers, rfl⟩ := segments_cons_eq_ok.1 h
    obtain ⟨inner, hinner, rfl⟩ := segment_annotated_eq_ok.1 hfirst
    rw [List.append_assoc, List.append_assoc, List.append_assoc, pieces_openTag, below hinner, pieces_closeTag,
      ahead hothers]
    simp [segmentsPieces, segmentPieces]

theorem pieces_body (h : segments source segs = .ok body) : pieces body = segmentsPieces source segs := by
  have all := pieces_segments h []
  rwa [List.append_nil, show pieces [] = [] from rfl, List.append_nil] at all

theorem filterMap_segmentsPieces :
    (segmentsPieces source segs).filterMap Piece.character? = escape (Segment.concat source segs) := by
  have characters : ∀ text : List Char, (text.map Piece.character).filterMap Piece.character? = text := by
    intro text
    rw [List.filterMap_map]
    exact List.filterMap_some
  induction segs using Segment.induction with
  | nil => rfl
  | text span rest ih =>
    rw [segmentsPieces, segmentPieces, List.filterMap_append, characters, ih, Segment.concat, Segment.textOf,
      escape_append]
  | annotated span tags children rest below ahead =>
    rw [segmentsPieces, segmentPieces, List.filterMap_append, List.filterMap_cons_none rfl, List.filterMap_append,
      below, ahead, Segment.concat, Segment.textOf, escape_append]
    simp [Piece.character?]

theorem outlineFrom_characters (depth : Nat) (text : List Char) (rest : List Piece) :
    outlineFrom depth (text.map .character ++ rest) = outlineFrom depth rest := by
  induction text with
  | nil => rfl
  | cons c text ih => simpa [outlineFrom] using ih

theorem outlineFrom_segmentsPieces (depth : Nat) (rest : List Piece) :
    outlineFrom depth (segmentsPieces source segs ++ rest) = (outlineFrom depth rest).map
      ((Segment.preorderFrom depth segs).filterMap annotatedKinds? ++ ·) := by
  induction segs using Segment.induction generalizing depth rest with
  | nil => simp [segmentsPieces, Segment.preorderFrom]
  | text span others ih =>
    rw [segmentsPieces, segmentPieces, List.append_assoc, outlineFrom_characters, ih]
    rfl
  | annotated span tags children others below ahead =>
    simp only [segmentsPieces, segmentPieces, List.cons_append, List.append_assoc, List.nil_append, outlineFrom,
      below, ahead]
    simp [Segment.preorderFrom, Segment.preorderSegment, annotatedKinds?, Function.comp_def]

variable {a : Annotated}

theorem render_eq_ok {text : String} : render a = .ok text ↔
    ∃ body, segments a.source.toList a.segments = .ok body ∧ text = header a ++ String.ofList body ++ footer := by
  simp only [render, bind_eq_ok, pure_eq_ok]

theorem header_line (a : Annotated) : ∃ line, '\n' ∉ line ∧ (header a).toList = line ++ ['\n'] := by
  have flag : ∀ b, '\n' ∉ (Text.ofBool b).toList := by decide
  have facade : '\n' ∉ "<module facade=\"".toList := by decide
  have moduleSyntax : '\n' ∉ "\" has-module-syntax=\"".toList := by decide
  have stop : '\n' ∉ "\">".toList := by decide
  unfold header
  cases a.moduleSyntax with
  | none =>
    refine ⟨"<module facade=\"".toList ++ (Text.ofBool a.facade).toList ++ "\">".toList, ?_, ?_⟩
    · simp only [List.mem_append, facade, flag, stop, or_self, not_false_eq_true]
    · simp only [String.toList_append, List.append_assoc]
      rfl
  | some b =>
    refine ⟨"<module facade=\"".toList ++ (Text.ofBool a.facade).toList ++ "\" has-module-syntax=\"".toList ++
      (Text.ofBool b).toList ++ "\">".toList, ?_, ?_⟩
    · simp only [List.mem_append, facade, moduleSyntax, flag, stop, or_self, not_false_eq_true]
    · simp only [String.toList_append, List.append_assoc]
      rfl

theorem body?_header_append (a : Annotated) (body : List Char) :
    body? ((header a).toList ++ body ++ footer.toList) = some body := by
  obtain ⟨line, hline, heq⟩ := header_line a
  have rest : ((line ++ '\n' :: (body ++ footer.toList)).dropWhile (· != '\n')).drop 1 = body ++ footer.toList := by
    rw [List.dropWhile_append_of_pos (bne_of_not_mem hline)]
    rfl
  rw [body?, heq, List.append_assoc, List.append_assoc, List.singleton_append, rest,
    List.dropSuffix?_eq_some_iff]
  exact ⟨footer.toList, rfl, by simp⟩

theorem unescape_strip {source body : List Char} {segs : List Segment} (h : segments source segs = .ok body) :
    unescape (strip body) = Segment.concat source segs := by
  rw [strip, pieces_body h, filterMap_segmentsPieces, unescape_escape]

example : unescape (strip "<chunk type=\"statement\">a &lt;/chunk&gt;</chunk>".toList) = "a </chunk>".toList := by
  decide

theorem outlineFrom_pieces {source body : List Char} {segs : List Segment} (h : segments source segs = .ok body) :
    outlineFrom 0 (pieces body) = some ((Segment.preorderFrom 0 segs).filterMap annotatedKinds?) := by
  rw [pieces_body h, ← List.append_nil (segmentsPieces source segs), outlineFrom_segmentsPieces, outlineFrom,
    Option.map_some, List.append_nil]

theorem exists_render_iff : (∃ text, render a = .ok text) ↔
    ∀ span ∈ Segment.texts a.segments, Text.Fits a.source.toList span := by
  rw [← exists_segments_iff]
  simp only [render_eq_ok]
  constructor
  · rintro ⟨_, body, hbody, -⟩
    exact ⟨body, hbody⟩
  · rintro ⟨body, hbody⟩
    exact ⟨_, body, hbody, rfl⟩

theorem body?_render {text : String} (h : render a = .ok text) :
    ∃ body, segments a.source.toList a.segments = .ok body ∧ body? text.toList = some body := by
  obtain ⟨body, hbody, rfl⟩ := render_eq_ok.1 h
  refine ⟨body, hbody, ?_⟩
  rw [String.toList_append, String.toList_append, String.toList_ofList]
  exact body?_header_append a body

/-- Markup is written exactly if all text fits the source, and can be read back: the text of the segments
    is what is left without the elements, and these are nested as the annotated segments. For an annotated
    source there is always markup, and it is the source that is left. -/
theorem render_reads_back (a : Annotated) :
    ((∃ text, render a = .ok text) ↔ ∀ span ∈ Segment.texts a.segments, Text.Fits a.source.toList span) ∧
    (∀ text, render a = .ok text → ∃ body, body? text.toList = some body ∧
      unescape (strip body) = Segment.concat a.source.toList a.segments ∧
      outlineFrom 0 (pieces body) = some ((Segment.preorderFrom 0 a.segments).filterMap annotatedKinds?)) ∧
    ∀ annotator source recording, Annotator.annotate annotator source recording = .ok a →
      ∃ text body, render a = .ok text ∧ body? text.toList = some body ∧
        unescape (strip body) = source.toList := by
  refine ⟨exists_render_iff, ?_, ?_⟩
  · intro text htext
    obtain ⟨body, hbody, hread⟩ := body?_render htext
    exact ⟨body, hread, unescape_strip hbody, outlineFrom_pieces hbody⟩
  · intro annotator source recording h
    obtain ⟨hsource, fits, hconcat⟩ := Annotator.annotate_reads h
    rw [← hsource] at fits hconcat
    obtain ⟨text, htext⟩ := exists_render_iff.2 fits
    obtain ⟨body, hbody, hread⟩ := body?_render htext
    exact ⟨text, body, htext, hread, by rw [unescape_strip hbody, hconcat, hsource]⟩

end AnnotatedSource.Markup
