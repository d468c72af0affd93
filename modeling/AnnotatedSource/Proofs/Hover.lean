import AnnotatedSource.Proofs.Cutting
import AnnotatedSource.Proofs.Paths

set_option autoImplicit false

/-!
# What is shown at an offset

The nodes on the path to an offset of the source and the annotated segments around the text that is cut
there are two ways to ask what covers the offset. They agree, but for points, which cover no text.
-/
namespace AnnotatedSource

namespace Span

def Covers (s : Span) (offset : Nat) : Prop := s.start ≤ offset ∧ offset < s.stop

instance (s : Span) (offset : Nat) : Decidable (s.Covers offset) := inferInstanceAs (Decidable (_ ∧ _))

theorem contains_point_iff {s : Span} (upright : s.Upright) (offset : Nat) :
    s.contains (.point offset) ↔ s.Covers offset ∨ s = .point offset := by
  obtain ⟨start, stop⟩ := s
  have hle : start ≤ stop := upright
  rw [contains_iff]
  simp only [point, Covers, mk.injEq, true_and, if_true]
  split_ifs <;> omega

theorem Covers.not_isPoint {s : Span} {offset : Nat} (h : s.Covers offset) : s.isPoint = false := by
  have hne : s.start ≠ s.stop := Nat.ne_of_lt (Nat.lt_of_le_of_lt h.1 h.2)
  simpa [isPoint] using hne

end Span

namespace Forest

variable {forest : Forest}

def coveringAt (offset : Nat) (forest : Forest) : List Span :=
  ((pathAt offset forest).filter (!·.span.isPoint)).map (·.span)

def Within (lo hi : Nat) (forest : Forest) : Prop := ∀ n ∈ forest, lo ≤ n.span.start ∧ n.span.stop ≤ hi

theorem Ordered.within_below {n : Node} {rest : Forest} (h : Ordered (n :: rest)) :
    Within n.span.start n.span.stop n.children := by
  intro c hc
  exact Span.contains_bounds (h.inside n (by simp) c hc)

theorem Ordered.within_nodes {lo hi : Nat} (h : Ordered forest) (within : Within lo hi forest) :
    ∀ m ∈ nodes forest, m.span.Upright ∧ lo ≤ m.span.start ∧ m.span.stop ≤ hi := by
  intro m hm
  have upright := h.upright m hm
  obtain ⟨n, hn, rfl | below⟩ := mem_nodes.1 hm
  · exact ⟨upright, within m hn⟩
  · have bounds := Span.contains_bounds (h.contains_below (mem_nodes_of_mem hn) below)
    have outer := within n hn
    exact ⟨upright, by omega, by omega⟩

theorem Ordered.within_ahead {n : Node} {rest : Forest} {lo hi : Nat} (h : Ordered (n :: rest))
    (within : Within lo hi (n :: rest)) : Within n.span.stop hi rest := by
  intro m hm
  have after := (h.before_roots hm).2.2
  exact ⟨after, (within m (List.mem_cons_of_mem n hm)).2⟩

theorem Ordered.pathAt_ahead {n : Node} {rest : Forest} {offset : Nat} (h : Ordered (n :: rest))
    (before : offset ≤ n.span.start) : pathAt offset rest = [] := by
  apply pathAt_eq_nil
  intro m hm contained
  have later := (h.before_roots hm).2.1
  have starts : m.span.start ≤ offset := (Span.contains_bounds contained).1
  omega

theorem Ordered.coveringAt_before {n : Node} {rest : Forest} {offset : Nat} (h : Ordered (n :: rest))
    (before : offset < n.span.start) : coveringAt offset (n :: rest) = [] := by
  have away : ¬ n.span.contains (.point offset) := by
    intro contained
    have starts : n.span.start ≤ offset := (Span.contains_bounds contained).1
    omega
  rw [coveringAt, pathAt_cons_of_not_contains away, h.pathAt_ahead (Nat.le_of_lt before)]
  rfl

theorem Ordered.coveringAt_inside {n : Node} {rest : Forest} {offset : Nat} (h : Ordered (n :: rest))
    (inside : n.span.Covers offset) : coveringAt offset (n :: rest) = n.span :: coveringAt offset n.children := by
  have contained := (Span.contains_point_iff (h.upright n (by simp)) offset).2 (.inl inside)
  rw [coveringAt, pathAt_cons_of_contains contained, List.filter_cons_of_pos (by simp [inside.not_isPoint])]
  rfl

theorem Ordered.coveringAt_outside {n : Node} {rest : Forest} {offset : Nat} (h : Ordered (n :: rest))
    (outside : ¬ n.span.Covers offset) : coveringAt offset (n :: rest) = coveringAt offset rest := by
  by_cases contained : n.span.contains (.point offset)
  · -- a point at the offset: it has no children, and nothing else is there
    have point : n.span = .point offset :=
      ((Span.contains_point_iff (h.upright n (by simp)) offset).1 contained).resolve_left outside
    have isPoint : n.span.isPoint = true := by rw [point, Span.isPoint_point]
    have leaf : n.children = [] := h.point_leaf (n := n) (by simp) isPoint
    have ahead : pathAt offset rest = [] := h.pathAt_ahead (by rw [point]; exact Nat.le_refl _)
    rw [coveringAt, coveringAt, pathAt_cons_of_contains contained, leaf, pathAt, ahead,
      List.filter_cons_of_neg (by simp [isPoint])]
  · rw [coveringAt, coveringAt, pathAt_cons_of_not_contains contained]

end Forest

namespace Segment

mutual

def framedSegment : Segment → List (List Span × Span)
  | text span => [([], span)]
  | annotated span _ children => (framed children).map fun (outer, t) => (span :: outer, t)

/-- All text, each piece with the spans of the annotated segments around it, outermost first. -/
def framed : List Segment → List (List Span × Span)
  | [] => []
  | s :: rest => framedSegment s ++ framed rest

end

theorem framed_snd (segments : List Segment) : (framed segments).map (·.2) = texts segments := by
  induction segments using induction with
  | nil => rfl
  | text span rest ih => simpa [framed, framedSegment] using ih
  | annotated span tags children rest below ahead =>
    simpa [framed, framedSegment, Function.comp_def] using congrArg₂ (· ++ ·) below ahead

/-- The text at an offset with what is around it. -/
def textsAt (offset : Nat) (segments : List Segment) : List (List Span × Span) :=
  (framed segments).filter fun piece => piece.2.Covers offset

variable {elide : Bool} {offset : Nat}

theorem framed_append (a b : List Segment) : framed (a ++ b) = framed a ++ framed b := by
  induction a with
  | nil => rfl
  | cons s a ih => simp [framed, ih]

theorem textsAt_append (a b : List Segment) : textsAt offset (a ++ b) = textsAt offset a ++ textsAt offset b := by
  simp [textsAt, framed_append]

theorem textsAt_cons (s : Segment) (rest : List Segment) :
    textsAt offset (s :: rest) = textsAt offset [s] ++ textsAt offset rest :=
  textsAt_append [s] rest

theorem textsAt_eq_nil {segments : List Segment} (h : ∀ t ∈ texts segments, ¬ t.Covers offset) :
    textsAt offset segments = [] := by
  rw [textsAt, List.filter_eq_nil_iff]
  intro piece hpiece
  have mem : piece.2 ∈ texts segments := framed_snd segments ▸ List.mem_map_of_mem hpiece
  simpa using h piece.2 mem

theorem textsAt_text (span : Span) : textsAt offset [text span] = if span.Covers offset then [([], span)] else [] := by
  by_cases h : span.Covers offset <;> simp [textsAt, framed, framedSegment, h]

theorem textsAt_annotated (span : Span) (tags : List Tag) (children : List Segment) :
    textsAt offset [annotated span tags children] =
      (textsAt offset children).map fun (outer, t) => (span :: outer, t) := by
  simp only [textsAt, framed, framedSegment, List.append_nil, List.filter_map, Function.comp_def]

theorem textsAt_gap (span : Span) : textsAt offset (gap elide span) = textsAt offset [text span] := by
  unfold gap
  split
  · next empty =>
    have hstop : span.stop ≤ span.start := by simpa [Span.isEmpty] using (Bool.and_eq_true_iff.1 empty).2
    have uncovered : ¬ span.Covers offset := by
      intro h
      have := h.1
      have := h.2
      omega
    rw [textsAt_text, if_neg uncovered]
    rfl
  · rfl

theorem textsAt_ofNode (n : Node) : textsAt offset [ofNode elide n] =
    (textsAt offset (ofForest elide n.children n.span)).map fun (outer, t) => (n.span :: outer, t) := by
  rw [ofNode_eq, textsAt_annotated]

/-- An ordered forest is cut in the order in which it stands. Where an empty range has no node, the two
    sides may differ by an empty piece of text. -/
theorem textsAt_ofForest {forest : Forest} (ascending : Forest.Ascending forest) (range : Span) :
    textsAt offset (ofForest elide forest range) =
      textsAt offset (withGaps elide range.start range.stop (ofNodes elide forest)) := by
  rw [ofForest_of_ascending ascending]
  split
  · next empty =>
    obtain rfl := List.isEmpty_iff.1 empty
    rw [ofNodes, withGaps, textsAt_gap]
  · rfl

theorem textsAt_ofForest_cons {n : Node} {rest : Forest} (ascending : Forest.Ascending (n :: rest))
    (range : Span) : textsAt offset (ofForest elide (n :: rest) range) =
      textsAt offset [text ⟨range.start, n.span.start⟩] ++
        (textsAt offset (ofForest elide n.children n.span)).map (fun (outer, t) => (n.span :: outer, t)) ++
          textsAt offset (ofForest elide rest ⟨n.span.stop, range.stop⟩) := by
  rw [textsAt_ofForest ascending, textsAt_ofForest ascending.tail, ofNodes, withGaps, span_ofNode, textsAt_append,
    textsAt_gap, textsAt_cons (ofNode elide n), textsAt_ofNode, List.append_assoc]

theorem textsAt_ofForest_eq_nil {forest : Forest} {range : Span} (h : Forest.Ordered forest)
    (upright : range.start ≤ range.stop) (within : Forest.Within range.start range.stop forest)
    (outside : ¬ range.Covers offset) : textsAt offset (ofForest elide forest range) = [] := by
  have ends : ∀ m ∈ Forest.nodes forest, m.span.EndsIn fun k => range.start ≤ k ∧ k ≤ range.stop := by
    intro m hm
    obtain ⟨hm, starts, stops⟩ := h.within_nodes within m hm
    exact ⟨hm, ⟨starts, Nat.le_trans hm stops⟩, Nat.le_trans starts hm, stops⟩
  have whole : range.EndsIn fun k => range.start ≤ k ∧ k ≤ range.stop :=
    ⟨upright, ⟨Nat.le_refl _, upright⟩, upright, Nat.le_refl _⟩
  have texts := (ofForest_sound elide h.toNested ends whole within).2
  apply textsAt_eq_nil
  intro t ht covered
  obtain ⟨-, starts, stops⟩ := texts t ht
  exact outside ⟨Nat.le_trans starts.1 covered.1, Nat.lt_of_lt_of_le covered.2 stops.2⟩

theorem textsAt_eq_coveringAt {forest : Forest} {range : Span} (h : Forest.Ordered forest)
    (within : Forest.Within range.start range.stop forest) (covers : range.Covers offset) :
    ∃ t, textsAt offset (ofForest elide forest range) = [(Forest.coveringAt offset forest, t)] := by
  induction forest using Forest.induction generalizing range with
  | nil =>
    refine ⟨range, ?_⟩
    show textsAt offset [text range] = _
    rw [textsAt_text, if_pos covers]
    rfl
  | cons n rest below ahead =>
    have upright : n.span.Upright := h.upright n (by simp)
    have hstop : n.span.stop ≤ range.stop := (within n (by simp)).2
    have withinRest := h.within_ahead within
    have none : offset < n.span.stop → textsAt offset (ofForest elide rest ⟨n.span.stop, range.stop⟩) = [] :=
      fun hlt => textsAt_ofForest_eq_nil h.ahead hstop withinRest fun hr => Nat.not_lt.2 hr.1 hlt
    rw [textsAt_ofForest_cons h.ascending, textsAt_text]
    -- the offset is before the root, in it or behind it, and only there is text at the offset
    by_cases before : offset < n.span.start
    · have outside : ¬ n.span.Covers offset := fun hn => Nat.not_lt.2 hn.1 before
      rw [if_pos ⟨covers.1, before⟩, textsAt_ofForest_eq_nil h.below upright h.within_below outside,
        none (Nat.lt_of_lt_of_le before upright), h.coveringAt_before before]
      exact ⟨_, rfl⟩
    · rw [if_neg fun hgap => before hgap.2]
      by_cases inside : n.span.Covers offset
      · obtain ⟨t, ht⟩ := below h.below h.within_below inside
        rw [ht, none inside.2, h.coveringAt_inside inside]
        exact ⟨t, rfl⟩
      · have behind : n.span.stop ≤ offset := Nat.not_lt.1 fun hlt => inside ⟨Nat.not_lt.1 before, hlt⟩
        obtain ⟨t, ht⟩ : ∃ t, textsAt offset (ofForest elide rest ⟨n.span.stop, range.stop⟩) =
            [(Forest.coveringAt offset rest, t)] := ahead h.ahead withinRest ⟨behind, covers.2⟩
        rw [textsAt_ofForest_eq_nil h.below upright h.within_below inside, ht,
          h.coveringAt_outside inside]
        exact ⟨t, rfl⟩

end Segment

namespace Annotator

variable {a : Annotator} {source : String} {r : Recording} {result : Annotated}

/-- What is shown at an offset is what is rendered there. Of all text in an annotated source one piece
    covers the offset, and the annotated segments around it are the nodes on the path to the offset that
    cover text. -/
theorem annotate_textsAt (h : a.annotate source r = .ok result) {offset : Nat}
    (hoffset : offset < Text.byteLength source.toList) :
    ∃ t, (Segment.framed result.segments).filter (fun piece => piece.2.Covers offset) =
      [(((Forest.pathAt offset result.forest).filter fun n => !n.span.isPoint).map (·.span), t)] := by
  obtain ⟨marks, placed, forest, -, hplaced, hforest, rfl⟩ := annotate_eq_ok.1 h
  have checked := (placed_eq_ok.1 hplaced).2
  have upright : ∀ m ∈ placed, m.span.Upright := fun m hm => (check_eq_ok.1 (checked m hm)).1.1
  have ordered := Forest.ordered_sorted upright hforest
  have nodes := placed_of_build checked hforest
  have within : Forest.Within 0 (Text.byteLength source.toList) forest.sorted := by
    intro n hn
    exact ⟨Nat.zero_le _, (nodes n (Forest.mem_nodes_of_mem hn)).2.1⟩
  exact Segment.textsAt_eq_coveringAt ordered within ⟨Nat.zero_le _, hoffset⟩

theorem annotate_textsAt_keyword : ∃ result,
    ({ elide := true } : Annotator).annotate "import('m')"
      ⟨[⟨some "m", 7, 10, 0, 11, 0, -1⟩], .list [], false, none⟩ = .ok result ∧
    (Forest.pathAt 0 result.forest).map (·.span) = [⟨0, 11⟩, ⟨0, 0⟩] ∧
    ∃ t, (Segment.framed result.segments).filter (fun piece => piece.2.Covers 0) = [([⟨0, 11⟩], t)] := by
  obtain ⟨result, h, path⟩ : ∃ result,
      ({ elide := true } : Annotator).annotate "import('m')"
        ⟨[⟨some "m", 7, 10, 0, 11, 0, -1⟩], .list [], false, none⟩ = .ok result ∧
      (Forest.pathAt 0 result.forest).map (·.span) = [⟨0, 11⟩, ⟨0, 0⟩] := ⟨_, rfl, rfl⟩
  have inside : 0 < Text.byteLength "import('m')".toList := by decide
  obtain ⟨t, ht⟩ := annotate_textsAt h inside
  have covering : ((Forest.pathAt 0 result.forest).filter fun n => !n.span.isPoint).map (·.span) = [⟨0, 11⟩] := by
    have ranges := congrArg (List.filter fun s => !s.isPoint) path
    rw [List.filter_map] at ranges
    exact ranges
  exact ⟨result, h, path, t, by rw [ht, covering]⟩

end Annotator
end AnnotatedSource
