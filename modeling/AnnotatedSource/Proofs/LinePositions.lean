import Mathlib.Data.List.Basic
import Mathlib.Data.List.Sort
import AnnotatedSource.Proofs.Spans

set_option autoImplicit false

namespace AnnotatedSource

namespace Bisection

inductive Found where
  | hit (index : Nat)
  /-- The key is not there, and this is the index of the first greater entry. -/
  | miss (index : Nat)
deriving DecidableEq, Repr

def Found.upTo : Found → Nat
  | hit index => index + 1
  | miss index => index

/-- Entries before `left` are known to be smaller than the key, and those from `right` on to be greater. -/
def within (entries : List Nat) (key left right : Nat) (inside : right ≤ entries.length) : Found :=
  if order : left < right then
    let middle := left + (right - left) / 2
    have bound : middle < entries.length := by omega
    if entries[middle] < key then within entries key (middle + 1) right inside
    else if key < entries[middle] then within entries key left middle (by omega)
    else .hit middle
  else .miss left
termination_by right - left

def search (entries : List Nat) (key : Nat) : Found := within entries key 0 entries.length (Nat.le_refl _)

inductive Answers (entries : List Nat) (key : Nat) : Found → Prop
  | hit (before after : List Nat) (split : entries = before ++ key :: after) : Answers entries key (.hit before.length)
  | miss (before after : List Nat) (split : entries = before ++ after) (smaller : ∀ e ∈ before, e < key)
      (greater : ∀ e ∈ after, key < e) : Answers entries key (.miss before.length)

variable {entries : List Nat} {key : Nat}

theorem lt_of_mem_take (ascending : entries.Pairwise (· < ·)) {i e : Nat} (hi : i < entries.length)
    (he : e ∈ entries.take i) : e < entries[i] := by
  obtain ⟨j, hj, rfl⟩ := List.mem_take_iff_getElem.1 he
  exact List.pairwise_iff_getElem.1 ascending j i (by omega) hi (by omega)

theorem lt_of_mem_drop (ascending : entries.Pairwise (· < ·)) {i e : Nat} (hi : i < entries.length)
    (he : e ∈ entries.drop (i + 1)) : entries[i] < e := by
  obtain ⟨j, hj, rfl⟩ := List.mem_drop_iff_getElem.1 he
  exact List.pairwise_iff_getElem.1 ascending i (i + 1 + j) hi (by omega) (by omega)

theorem within_answers (ascending : entries.Pairwise (· < ·)) {left right : Nat} (inside : right ≤ entries.length)
    (order : left ≤ right) (smaller : ∀ e ∈ entries.take left, e < key) (greater : ∀ e ∈ entries.drop right, key < e) :
    Answers entries key (within entries key left right inside) := by
  fun_induction within entries key left right inside with
  | case1 left right inside hlt middle bound less ih =>
    refine ih (by omega) (fun e he => ?_) greater
    rw [List.take_succ_eq_append_getElem bound, List.mem_append, List.mem_singleton] at he
    rcases he with he | rfl
    · exact Nat.lt_trans (lt_of_mem_take ascending bound he) less
    · exact less
  | case2 left right inside hlt middle bound less more ih =>
    refine ih (by omega) smaller fun e he => ?_
    rw [List.drop_eq_getElem_cons bound, List.mem_cons] at he
    rcases he with rfl | he
    · exact more
    · exact Nat.lt_trans more (lt_of_mem_drop ascending bound he)
  | case3 left right inside hlt middle bound less more =>
    have same : entries[middle] = key := by omega
    have split : entries = entries.take middle ++ key :: entries.drop (middle + 1) := by
      rw [← same, ← List.drop_eq_getElem_cons bound, List.take_append_drop]
    have index : (entries.take middle).length = middle := by simp; omega
    rw [← index]
    exact .hit _ _ split
  | case4 left right inside closed =>
    obtain rfl : left = right := by omega
    have index : (entries.take left).length = left := by simp; omega
    rw [← index]
    exact .miss _ _ (List.take_append_drop left entries).symm smaller greater

theorem search_answers (ascending : entries.Pairwise (· < ·)) (key : Nat) :
    Answers entries key (search entries key) :=
  within_answers ascending _ (Nat.zero_le _) (by simp) (by simp)

theorem Answers.upTo {found : Found} (h : Answers entries key found) (ascending : entries.Pairwise (· < ·)) :
    ∃ after, entries = entries.filter (· ≤ key) ++ after ∧ (entries.filter (· ≤ key)).length = found.upTo := by
  cases h with
  | hit before after split =>
    subst split
    obtain ⟨-, behind, smaller⟩ := List.pairwise_append.1 ascending
    have greater := (List.pairwise_cons.1 behind).1
    have kept : (before ++ key :: after).filter (· ≤ key) = before ++ [key] := by
      rw [List.filter_append, List.filter_cons_of_pos (by simp), List.filter_eq_self.2, List.filter_eq_nil_iff.2]
      · intro e he
        simpa using greater e he
      · intro e he
        simpa using Nat.le_of_lt (smaller e he key (by simp))
    rw [kept]
    exact ⟨after, by simp, by simp [Found.upTo]⟩
  | miss before after split smaller greater =>
    subst split
    have kept : (before ++ after).filter (· ≤ key) = before := by
      rw [List.filter_append, List.filter_eq_self.2, List.filter_eq_nil_iff.2, List.append_nil]
      · intro e he
        simpa using greater e he
      · intro e he
        simpa using Nat.le_of_lt (smaller e he)
    rw [kept]
    exact ⟨after, rfl, rfl⟩

end Bisection

namespace Text

def lineFeedsBefore (text : List Char) (offset : Nat) : List Nat :=
  (List.range offset).filter fun byte => slice? text ⟨byte, byte + 1⟩ = some ['\n']

def lineStart (text : List Char) (offset : Nat) : Nat :=
  match (lineFeedsBefore text offset).getLast? with
  | some byte => byte + 1
  | none => 0

theorem slice?_lineFeed_iff {text : List Char} {byte : Nat} : slice? text ⟨byte, byte + 1⟩ = some ['\n'] ↔
    ∃ before after, text = before ++ '\n' :: after ∧ byteLength before = byte := by
  have one : byteLength ['\n'] = 1 := rfl
  rw [slice?_eq_some_iff]
  constructor
  · rintro ⟨-, before, after, split, length, -⟩
    exact ⟨before, after, split, length⟩
  · rintro ⟨before, after, split, length⟩
    exact ⟨Nat.le_succ byte, before, after, split, length, by simp [one]⟩

end Text

namespace OffsetTable

open Text Bisection

variable {source : List Char} {offset : Nat}

theorem mem_linesFrom {text : List Char} {base start : Nat} : start ∈ linesFrom base text ↔
    ∃ before after, text = before ++ '\n' :: after ∧ start = base + byteLength before + 1 := by
  induction text generalizing base with
  | nil => simp [linesFrom]
  | cons c text ih =>
    have size : '\n'.utf8Size = 1 := rfl
    have split : (∃ before after, c :: text = before ++ '\n' :: after ∧ start = base + byteLength before + 1) ↔
        (c = '\n' ∧ start = base + 1) ∨
        ∃ before after, text = before ++ '\n' :: after ∧ start = base + c.utf8Size + byteLength before + 1 := by
      constructor
      · rintro ⟨_ | ⟨d, before⟩, after, heq, rfl⟩
        · cases heq
          exact .inl ⟨rfl, rfl⟩
        · cases heq
          exact .inr ⟨before, after, rfl, by rw [byteLength, ← Nat.add_assoc base]⟩
      · rintro (⟨rfl, rfl⟩ | ⟨before, after, rfl, rfl⟩)
        · exact ⟨[], text, rfl, rfl⟩
        · exact ⟨c :: before, after, rfl, by rw [byteLength, ← Nat.add_assoc base]⟩
    rw [split, linesFrom]
    split_ifs with feed
    · subst feed
      rw [List.mem_cons, ih, size]
      simp
    · rw [ih]
      simp [feed]

theorem lt_of_mem_linesFrom {text : List Char} {base start : Nat} (h : start ∈ linesFrom base text) : base < start := by
  obtain ⟨before, after, -, rfl⟩ := mem_linesFrom.1 h
  omega

theorem linesFrom_ascending (base : Nat) (text : List Char) : (linesFrom base text).Pairwise (· < ·) := by
  induction text generalizing base with
  | nil => exact .nil
  | cons c text ih =>
    rw [linesFrom]
    split_ifs
    · exact List.pairwise_cons.2 ⟨fun _ h => lt_of_mem_linesFrom h, ih _⟩
    · exact ih _

def passed (table : OffsetTable) (offset : Nat) : List Nat := table.laterLines.filter (· ≤ offset)

theorem passed_eq (source : List Char) (offset : Nat) :
    (ofText source).passed offset = (lineFeedsBefore source offset).map (· + 1) := by
  have feeds : ((lineFeedsBefore source offset).map (· + 1)).Pairwise (· < ·) := by
    refine List.pairwise_map.2 ((List.pairwise_lt_range.filter _).imp fun h => ?_)
    omega
  refine ((linesFrom_ascending 0 source).filter _).eq_of_mem_iff feeds fun start => ?_
  simp only [lineFeedsBefore, List.mem_filter, List.mem_map, List.mem_range, decide_eq_true_eq, slice?_lineFeed_iff,
    mem_linesFrom]
  constructor
  · rintro ⟨⟨before, after, split, rfl⟩, hle⟩
    exact ⟨byteLength before, ⟨by omega, before, after, split, rfl⟩, by omega⟩
  · rintro ⟨_, ⟨hlt, before, after, split, rfl⟩, rfl⟩
    exact ⟨⟨before, after, split, by omega⟩, by omega⟩

theorem passed_getLastD (source : List Char) (offset : Nat) :
    ((ofText source).passed offset).getLastD 0 = lineStart source offset := by
  rw [passed_eq, lineStart, List.getLastD_eq_getLast?, List.getLast?_map]
  cases (lineFeedsBefore source offset).getLast? <;> rfl

theorem locate_eq {starts : List Nat} (ascending : starts.Pairwise (· < ·)) (offset line start : Nat) :
    locate offset line start starts =
      ⟨line + (starts.filter (· ≤ offset)).length, offset - (starts.filter (· ≤ offset)).getLastD start⟩ := by
  induction starts generalizing line start with
  | nil => rfl
  | cons next rest ih =>
    obtain ⟨later, ascending⟩ := List.pairwise_cons.1 ascending
    rw [locate]
    split_ifs with hle
    · rw [ih ascending, List.filter_cons_of_pos (by simpa using hle), List.getLastD_cons, List.length_cons]
      simp only [Position.mk.injEq, and_true]
      omega
    · have none : (next :: rest).filter (· ≤ offset) = [] := by
        rw [List.filter_eq_nil_iff, List.forall_mem_cons]
        refine ⟨by simpa using hle, fun e he => ?_⟩
        have := later e he
        simp only [decide_eq_true_eq]
        omega
      rw [none]
      rfl

theorem position_eq (source : List Char) (offset : Nat) :
    (ofText source).position offset = ⟨(lineFeedsBefore source offset).length, offset - lineStart source offset⟩ := by
  have ascending : (ofText source).laterLines.Pairwise (· < ·) := linesFrom_ascending 0 source
  have located := locate_eq ascending offset 0 0
  rw [← passed, passed_getLastD, passed_eq, List.length_map, Nat.zero_add] at located
  exact located

theorem lineStart_le (source : List Char) (offset : Nat) : lineStart source offset ≤ offset := by
  unfold lineStart
  split
  · next byte last =>
    have mem := List.mem_of_getLast? last
    rw [lineFeedsBefore, List.mem_filter, List.mem_range] at mem
    omega
  · exact Nat.zero_le offset

theorem lineFeedsBefore_append (source : List Char) {a b : Nat} (h : a ≤ b) :
    ∃ between, lineFeedsBefore source b = lineFeedsBefore source a ++ between := by
  obtain ⟨k, rfl⟩ := Nat.exists_eq_add_of_le h
  rw [lineFeedsBefore, List.range_add, List.filter_append]
  exact ⟨_, rfl⟩

def lineStarts (table : OffsetTable) : List Nat := 0 :: table.laterLines

def minus? (a b : Nat) : Option Nat := if b ≤ a then some (a - b) else none

def lineOf? : Found → Option Nat
  | .hit index => some index
  | .miss index => minus? index 1

/-- The position by a search; none if a difference on the way fell below zero. -/
def searched? (table : OffsetTable) (offset : Nat) : Option Position := do
  let line ← lineOf? (search table.lineStarts offset)
  let start ← table.lineStarts[line]?
  let column ← minus? offset start
  return ⟨line, column⟩

theorem lineOf?_eq (found : Found) : lineOf? found = minus? found.upTo 1 := by
  cases found with
  | hit index => simp [lineOf?, minus?, Found.upTo]
  | miss index => rfl

theorem lineStarts_ascending (source : List Char) : (ofText source).lineStarts.Pairwise (· < ·) :=
  List.pairwise_cons.2 ⟨fun _ h => lt_of_mem_linesFrom h, linesFrom_ascending 0 source⟩

theorem getElem?_getLastD (first : Nat) (rest after : List Nat) :
    (first :: rest ++ after)[rest.length]? = some (rest.getLastD first) := by
  induction rest generalizing first with
  | nil => rfl
  | cons next rest ih =>
    rw [List.getLastD_cons]
    exact ih next

/-- The first line starts at zero, so a search never ends in front of it. -/
theorem searched?_eq (source : List Char) (offset : Nat) :
    (ofText source).searched? offset = some ((ofText source).position offset) := by
  have ascending := lineStarts_ascending source
  obtain ⟨after, split, upTo⟩ := (search_answers ascending offset).upTo ascending
  have reached : (ofText source).lineStarts.filter (· ≤ offset) = 0 :: (ofText source).passed offset := by
    rw [lineStarts, List.filter_cons_of_pos (by simp), passed]
  rw [reached] at split upTo
  have line : lineOf? (search (ofText source).lineStarts offset) = some (lineFeedsBefore source offset).length := by
    rw [lineOf?_eq, ← upTo, passed_eq]
    simp [minus?]
  have start :
      (ofText source).lineStarts[(lineFeedsBefore source offset).length]? = some (lineStart source offset) := by
    have last := getElem?_getLastD 0 ((ofText source).passed offset) after
    rwa [← split, passed_getLastD, passed_eq, List.length_map] at last
  simp [searched?, line, start, minus?, lineStart_le, position_eq]

/-- Every offset has a line and a column, and later offsets have later ones. The search that finds them takes one
    from an index and a line's start from the offset, and neither difference falls below zero. -/
theorem position_counts_lineFeeds (source : List Char) :
    (∀ offset,
      ((ofText source).position offset).line = (lineFeedsBefore source offset).length ∧
      lineStart source offset ≤ offset ∧
      ((ofText source).position offset).column = offset - lineStart source offset ∧
      (ofText source).searched? offset = some ((ofText source).position offset) ∧
      ((ofText source).position offset).line < (ofText source).lineCount) ∧
    ∀ a b, a < b →
      ((ofText source).position a).line < ((ofText source).position b).line ∨
      ((ofText source).position a).line = ((ofText source).position b).line ∧
        ((ofText source).position a).column < ((ofText source).position b).column := by
  constructor
  · intro offset
    have count : (lineFeedsBefore source offset).length ≤ (ofText source).laterLines.length := by
      have h := List.length_filter_le (· ≤ offset) (ofText source).laterLines
      rwa [← passed, passed_eq, List.length_map] at h
    rw [searched?_eq, position_eq, lineCount]
    exact ⟨rfl, lineStart_le source offset, rfl, rfl, Nat.lt_succ_of_le count⟩
  · intro a b hlt
    obtain ⟨between, split⟩ := lineFeedsBefore_append source (Nat.le_of_lt hlt)
    have start := lineStart_le source a
    rw [position_eq, position_eq, split]
    cases between with
    | nil =>
      have same : lineStart source b = lineStart source a := by rw [lineStart, lineStart, split, List.append_nil]
      refine .inr ⟨by simp, ?_⟩
      simp only [same]
      omega
    | cons feed rest =>
      left
      simp

example : [3, 9].map (ofText ['\n', '\n', 'é']).position = [⟨2, 1⟩, ⟨2, 7⟩] := by decide

end OffsetTable
end AnnotatedSource
