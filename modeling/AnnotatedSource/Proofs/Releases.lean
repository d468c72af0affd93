import Mathlib.Data.Prod.Lex
import AnnotatedSource.Lexer
import AnnotatedSource.Proofs.Numerals
import AnnotatedSource.Proofs.Placement

set_option autoImplicit false

namespace AnnotatedSource

namespace Release

/-- One or more decimal digits of a value that 64 bits hold; zeros may lead. -/
def Writes (digits : List Char) (n : UInt64) : Prop := Text.Decimal n.toNat digits

/-- Three numbers joined by points. -/
def Named (text : String) (r : Release) : Prop :=
  ∃ major minor patch, text.toList = major ++ '.' :: (minor ++ '.' :: patch) ∧
    Writes major r.major ∧ Writes minor r.minor ∧ Writes patch r.patch

theorem component?_eq_some_iff {digits : List Char} {n : UInt64} :
    component? digits = some n ↔ Writes digits n := by
  have limit : Word.bound = 2 ^ 64 := rfl
  have reads : Writes digits n ↔ Text.number? 10 digits = some n.toNat := Text.number?_eq_some_iff.symm
  rw [reads, component?]
  cases Text.number? 10 digits with
  | none => simp
  | some m =>
    simp only [Option.some.injEq]
    by_cases holds : Word.holds m
    · have small : m < 2 ^ 64 := limit ▸ (Word.holds_iff m).1 holds
      rw [if_pos holds, Option.some.injEq, ← UInt64.toNat_inj, UInt64.toNat_ofNat_of_lt' small]
    · rw [if_neg holds]
      simp only [reduceCtorEq, false_iff]
      intro same
      have small : m < 2 ^ 64 := same ▸ n.toNat_lt
      exact holds ((Word.holds_iff m).2 (limit ▸ small))

theorem Writes.separator_free {digits : List Char} {n : UInt64} (h : Writes digits n) : '.' ∉ digits :=
  fun mem => absurd (h.2.1 '.' mem) (by decide)

theorem ofText?_eq_some_iff {s : String} {r : Release} : ofText? s = some r ↔ Named s r := by
  unfold ofText?
  constructor
  · intro h
    split at h
    · next a b c pieces =>
      split at h
      · next major minor patch hmajor hminor hpatch =>
        obtain rfl := Option.some.inj h
        have joined := ((Text.splitOn_eq_iff (by simp)).1 pieces).2
        refine ⟨a, b, c, ?_, component?_eq_some_iff.1 hmajor, component?_eq_some_iff.1 hminor,
          component?_eq_some_iff.1 hpatch⟩
        simpa using joined
      · cases h
    · cases h
  · rintro ⟨a, b, c, text, major, minor, patch⟩
    have pieces : Text.splitOn '.' s.toList = [a, b, c] := by
      refine (Text.splitOn_eq_iff (by simp)).2 ⟨?_, by simpa using text⟩
      simp [major.separator_free, minor.separator_free, patch.separator_free]
    rw [pieces]
    simp only [component?_eq_some_iff.2 major, component?_eq_some_iff.2 minor, component?_eq_some_iff.2 patch]

theorem ofText_eq_ok_iff {s : String} {r : Release} : ofText s = .ok r ↔ Named s r := by
  rw [← ofText?_eq_some_iff, ofText]
  cases ofText? s <;> simp

theorem ofText_eq_malformed {s : String} (h : ∀ r, ¬ Named s r) : ofText s = .error (.malformed s) := by
  unfold ofText
  cases hread : ofText? s with
  | none => rfl
  | some r => exact absurd (ofText?_eq_some_iff.1 hread) (h r)

def numbers (r : Release) : ℕ ×ₗ ℕ ×ₗ ℕ := toLex (r.major.toNat, toLex (r.minor.toNat, r.patch.toNat))

theorem isLower_iff (a b : Release) : a.isLower b = true ↔ a.numbers < b.numbers := by
  simp only [isLower, numbers, Prod.Lex.toLex_lt_toLex, Bool.or_eq_true, Bool.and_eq_true, decide_eq_true_eq,
    beq_iff_eq, UInt64.lt_iff_toNat_lt, UInt64.toNat_inj]

theorem isLower_eq (a b : Release) : a.isLower b = decide (a.numbers < b.numbers) := by
  rw [Bool.eq_iff_iff, isLower_iff, decide_eq_true_eq]

theorem named_text (r : Release) : Named r.text r := by
  refine ⟨Nat.toDigits 10 r.major.toNat, Nat.toDigits 10 r.minor.toNat, Nat.toDigits 10 r.patch.toNat, ?_,
    Text.decimal_toDigits _, Text.decimal_toDigits _, Text.decimal_toDigits _⟩
  simp [text, Nat.toList_repr]

/-- The three runs of a text that a pattern of runs and points matches as a whole. What the pattern takes
    for a digit need not be a decimal digit. -/
def runs? (digit : Char → Bool) (s : String) : Option (List Char × List Char × List Char) :=
  match Text.splitOn '.' s.toList with
  | [a, b, c] =>
    if [a, b, c].all fun run => !run.isEmpty && run.all digit then some (a, b, c) else none
  | _ => none

def word? : List Char → Option UInt64
  | '+' :: digits => component? digits
  | digits => component? digits

def matched? (digit : Char → Bool) (s : String) : Option Release := do
  let (a, b, c) ← runs? digit s
  return ⟨← word? a, ← word? b, ← word? c⟩

theorem word?_of_digits {digit : Char → Bool} (unsigned : digit '+' = false) {run : List Char}
    (digits : ∀ c ∈ run, digit c) : word? run = component? run := by
  unfold word?
  split
  · next rest =>
    have signed := digits '+' List.mem_cons_self
    rw [unsigned] at signed
    cases signed
  · rfl

theorem Writes.matched {digit : Char → Bool} (decimal : ∀ c, Text.isDecimal c → digit c) {run : List Char}
    {n : UInt64} (h : Writes run n) : (!run.isEmpty && run.all digit) = true := by
  simp only [Bool.and_eq_true, Bool.not_eq_true', List.isEmpty_eq_false_iff, List.all_eq_true]
  exact ⟨h.1, fun c hc => decimal c (h.2.1 c hc)⟩

theorem matched?_eq {digit : Char → Bool} (decimal : ∀ c, Text.isDecimal c → digit c)
    (unsigned : digit '+' = false) (s : String) : matched? digit s = ofText? s := by
  unfold matched? runs? ofText?
  generalize Text.splitOn '.' s.toList = pieces
  rcases pieces with _ | ⟨a, _ | ⟨b, _ | ⟨c, _ | ⟨d, more⟩⟩⟩⟩
  case cons.cons.cons.nil =>
    by_cases runs : [a, b, c].all fun run => !run.isEmpty && run.all digit
    · have word (run : List Char) (hrun : run ∈ [a, b, c]) : word? run = component? run :=
        word?_of_digits unsigned
          (List.all_eq_true.1 (Bool.and_eq_true_iff.1 (List.all_eq_true.1 runs run hrun)).2)
      simp only [if_pos runs, Option.bind_eq_bind, Option.bind_some, word a (by simp), word b (by simp),
        word c (by simp)]
      cases component? a <;> cases component? b <;> cases component? c <;> rfl
    · simp only [if_neg runs, Option.bind_eq_bind, Option.bind_none]
      split
      · next major minor patch ha hb hc =>
        -- numbers are written in runs that the pattern matches
        have matched : ∀ run ∈ [a, b, c], (!run.isEmpty && run.all digit) = true := by
          simp [(component?_eq_some_iff.1 ha).matched decimal, (component?_eq_some_iff.1 hb).matched decimal,
            (component?_eq_some_iff.1 hc).matched decimal, -Bool.and_eq_true]
        exact absurd (List.all_eq_true.2 matched) runs
      · rfl
  all_goals rfl

variable {a b : String} {v w : Release}

theorem isLowerText_of_named (ha : Named a v) (hb : Named b w) :
    isLowerText a b = .ok (decide (v.numbers < w.numbers)) := by
  rw [isLowerText, ofText_eq_ok_iff.2 ha, ofText_eq_ok_iff.2 hb, ← isLower_eq]
  rfl

theorem isLowerText_of_not_named (ha : ∀ v, ¬ Named a v) : isLowerText a b = .error (.malformed a) := by
  rw [isLowerText, ofText_eq_malformed ha]
  rfl

theorem isLowerText_of_not_named_target (ha : Named a v) (hb : ∀ w, ¬ Named b w) :
    isLowerText a b = .error (.malformed b) := by
  rw [isLowerText, ofText_eq_ok_iff.2 ha, ofText_eq_malformed hb]
  rfl

theorem isLowerText_eq_ok_iff {lower : Bool} : isLowerText a b = .ok lower ↔
    ∃ v w, Named a v ∧ Named b w ∧ lower = decide (v.numbers < w.numbers) := by
  constructor
  · intro h
    by_cases ha : ∃ v, Named a v
    · obtain ⟨v, ha⟩ := ha
      by_cases hb : ∃ w, Named b w
      · obtain ⟨w, hb⟩ := hb
        rw [isLowerText_of_named ha hb] at h
        exact ⟨v, w, ha, hb, (Except.ok.inj h).symm⟩
      · rw [isLowerText_of_not_named_target ha (not_exists.1 hb)] at h
        cases h
    · rw [isLowerText_of_not_named (not_exists.1 ha)] at h
      cases h
  · rintro ⟨v, w, ha, hb, rfl⟩
    exact isLowerText_of_named ha hb

/-- The texts that name a release are read as the release that they name and all others are malformed, also
    through a pattern that takes more than the decimal digits for digits. What is written names what it was
    written for, and two texts are compared by their numbers, unless one of them is malformed. -/
theorem ofText_exact :
    (∀ s r, ofText s = .ok r ↔ Named s r) ∧
    (∀ s, (∀ r, ¬ Named s r) → ofText s = .error (.malformed s)) ∧
    (∀ digit : Char → Bool, (∀ c, Text.isDecimal c → digit c) → digit '+' = false →
      ∀ s, matched? digit s = ofText? s) ∧
    (∀ r : Release, ofText r.text = .ok r) ∧
    (∀ a b lower, isLowerText a b = .ok lower ↔
      ∃ v w, Named a v ∧ Named b w ∧ lower = decide (v.numbers < w.numbers)) ∧
    (∀ a b, (∀ v, ¬ Named a v) → isLowerText a b = .error (.malformed a)) ∧
    ∀ a b v, Named a v → (∀ w, ¬ Named b w) → isLowerText a b = .error (.malformed b) := by
  refine ⟨fun _ _ => ofText_eq_ok_iff, fun _ => ofText_eq_malformed, fun _ => matched?_eq, ?_,
    fun _ _ _ => isLowerText_eq_ok_iff, fun _ _ => isLowerText_of_not_named,
    fun _ _ _ => isLowerText_of_not_named_target⟩
  intro r
  exact ofText_eq_ok_iff.2 (named_text r)

end Release

namespace Capabilities

theorem ofRelease_eq (r : Release) : ofRelease r =
    if r.numbers < Release.numbers ⟨0, 5, 0⟩ then .error (.unsupported r ⟨0, 5, 0⟩)
    else .ok ⟨decide (Release.numbers ⟨1, 0, 0⟩ ≤ r.numbers), decide (Release.numbers ⟨1, 5, 0⟩ ≤ r.numbers)⟩ := by
  unfold ofRelease Release.oldest Release.firstWithExports Release.firstWithSyntaxFlag
  simp only [Release.isLower_eq, decide_eq_true_eq, ← decide_not, not_lt]

theorem ofText_of_named {s : String} {r : Release} (h : Release.Named s r) : ofText s = ofRelease r := by
  rw [ofText, Release.ofText_eq_ok_iff.2 h]
  rfl

theorem ofText_of_not_named {s : String} (h : ∀ r, ¬ Release.Named s r) : ofText s = .error (.malformed s) := by
  rw [ofText, Release.ofText_eq_malformed h]
  rfl

def Within (c d : Capabilities) : Prop :=
  (c.exportRecords = true → d.exportRecords = true) ∧ (c.syntaxFlag = true → d.syntaxFlag = true)

theorem within_of_le {a b : Release} {c d : Capabilities} (hle : a.numbers ≤ b.numbers)
    (ha : ofRelease a = .ok c) (hb : ofRelease b = .ok d) : c.Within d := by
  rw [ofRelease_eq] at ha hb
  split at ha
  · cases ha
  split at hb
  · cases hb
  cases ha
  cases hb
  simp only [Within, decide_eq_true_eq]
  exact ⟨fun h => le_trans h hle, fun h => le_trans h hle⟩

end Capabilities

namespace Annotator

variable {a : Annotator} {source : String} {r : Recording}

theorem run_replay_error {release : String} {e : ReleaseError} (h : Capabilities.ofText release = .error e) :
    a.run source (.replay r (some release)) = .error (.release e) := by
  have refused : a.forLexer (.replay r (some release)) = .error e := by
    simp only [forLexer, Lexer.replay, h, Except.map]
  rw [run, refused]

theorem run_replay_ok {release : String} {c : Capabilities} (h : Capabilities.ofText release = .ok c) :
    a.run source (.replay r (some release)) = ({ a with capabilities := c }.annotate source r).mapError .placement := by
  have known : a.forLexer (.replay r (some release)) = .ok { a with capabilities := c } := by
    simp only [forLexer, Lexer.replay, h, Except.map]
  rw [← run_replay_none, run, run, known]
  rfl

theorem annotate_unreported (h : a.capabilities.exportRecords = false) (exports : Value) :
    a.annotate source { r with exports } = a.annotate source r := by
  have none : ∀ r : Recording, a.exports r = .ok [] := by
    intro r
    rw [Annotator.exports, if_neg (by simp [h])]
  rw [annotate, annotate, marks, marks, none, none]

theorem annotate_undecoded (h : a.capabilities.exportRecords = true) {fault : RecordFault}
    (undecoded : r.exportRecords = .error fault) : a.annotate source r = .error (.malformedExports fault) := by
  have exports : a.exports r = .error (.malformedExports fault) := by
    rw [Annotator.exports, if_pos h, undecoded]
  rw [annotate, marks, exports]
  rfl

theorem annotate_moduleSyntax {result : Annotated} (h : a.annotate source r = .ok result) :
    result.moduleSyntax = if a.capabilities.syntaxFlag then r.moduleSyntax else none := by
  obtain ⟨_, _, _, _, _, _, rfl⟩ := annotate_eq_ok.1 h
  rfl

theorem mapError_eq_ok {ε ε' α : Type} {f : ε → ε'} {x : Except ε α} {y : α} : x.mapError f = .ok y ↔ x = .ok y := by
  cases x <;> simp [Except.mapError]

variable {name : String} {x : Release}

theorem run_replay_unsupported (named : Release.Named name x) (old : x.numbers < Release.numbers ⟨0, 5, 0⟩) :
    a.run source (.replay r (some name)) = .error (.release (.unsupported x ⟨0, 5, 0⟩)) := by
  apply run_replay_error
  rw [Capabilities.ofText_of_named named, Capabilities.ofRelease_eq, if_pos old]

theorem run_replay_supported (named : Release.Named name x) (supported : Release.numbers ⟨0, 5, 0⟩ ≤ x.numbers) :
    a.run source (.replay r (some name)) = ({ a with
      capabilities := ⟨decide (Release.numbers ⟨1, 0, 0⟩ ≤ x.numbers),
        decide (Release.numbers ⟨1, 5, 0⟩ ≤ x.numbers)⟩ }.annotate source r).mapError .placement := by
  apply run_replay_ok
  rw [Capabilities.ofText_of_named named, Capabilities.ofRelease_eq, if_neg (not_lt.2 supported)]

theorem run_replay_unreported (named : Release.Named name x) (old : x.numbers < Release.numbers ⟨1, 0, 0⟩)
    (exports : Value) :
    a.run source (.replay { r with exports } (some name)) = a.run source (.replay r (some name)) := by
  by_cases supported : Release.numbers ⟨0, 5, 0⟩ ≤ x.numbers
  · rw [run_replay_supported named supported, run_replay_supported named supported, annotate_unreported]
    exact decide_eq_false (not_le.2 old)
  · rw [run_replay_unsupported named (not_le.1 supported), run_replay_unsupported named (not_le.1 supported)]

theorem run_replay_undecoded (named : Release.Named name x) (since : Release.numbers ⟨1, 0, 0⟩ ≤ x.numbers)
    {fault : RecordFault} (undecoded : r.exportRecords = .error fault) :
    a.run source (.replay r (some name)) = .error (.placement (.malformedExports fault)) := by
  have supported : Release.numbers ⟨0, 5, 0⟩ ≤ x.numbers := le_trans (by decide) since
  rw [run_replay_supported named supported, annotate_undecoded (decide_eq_true since) undecoded]
  rfl

theorem run_replay_moduleSyntax (named : Release.Named name x) {result : Annotated}
    (h : a.run source (.replay r (some name)) = .ok result) : result.moduleSyntax =
      if Release.numbers ⟨1, 5, 0⟩ ≤ x.numbers then r.moduleSyntax else none := by
  by_cases supported : Release.numbers ⟨0, 5, 0⟩ ≤ x.numbers
  · rw [run_replay_supported named supported, mapError_eq_ok] at h
    simpa only [decide_eq_true_eq] using annotate_moduleSyntax h
  · rw [run_replay_unsupported named (not_le.1 supported)] at h
    cases h

/-- The release that a lexer names decides alone. A name that is malformed or too old is told, whatever was
    recorded; otherwise the capabilities of the annotator do not count, exports are not looked at before
    1.0.0 and have to decode from then on, and the syntax flag is unknown before 1.5.0 and as recorded from
    then on. A later release never reports less. -/
theorem run_replay_gated (a : Annotator) (source : String) (r : Recording) (name : String) :
    ((∀ x, ¬ Release.Named name x) →
      a.run source (.replay r (some name)) = .error (.release (.malformed name))) ∧
    ∀ x, Release.Named name x →
      (x.numbers < Release.numbers ⟨0, 5, 0⟩ →
        a.run source (.replay r (some name)) = .error (.release (.unsupported x ⟨0, 5, 0⟩))) ∧
      (∀ capabilities, { a with capabilities }.run source (.replay r (some name)) =
        a.run source (.replay r (some name))) ∧
      (x.numbers < Release.numbers ⟨1, 0, 0⟩ → ∀ exports,
        a.run source (.replay { r with exports } (some name)) = a.run source (.replay r (some name))) ∧
      (Release.numbers ⟨1, 0, 0⟩ ≤ x.numbers → ∀ fault, r.exportRecords = .error fault →
        a.run source (.replay r (some name)) = .error (.placement (.malformedExports fault))) ∧
      (∀ result, a.run source (.replay r (some name)) = .ok result → result.moduleSyntax =
        if Release.numbers ⟨1, 5, 0⟩ ≤ x.numbers then r.moduleSyntax else none) ∧
      (Release.numbers ⟨0, 5, 0⟩ ≤ x.numbers → ∀ later y, Release.Named later y → x.numbers ≤ y.numbers →
        ∃ c d, Capabilities.ofText name = .ok c ∧ Capabilities.ofText later = .ok d ∧ c.Within d) := by
  constructor
  · intro unnamed
    exact run_replay_error (Capabilities.ofText_of_not_named unnamed)
  intro x named
  refine ⟨run_replay_unsupported named, ?_, run_replay_unreported named,
    fun since _ undecoded => run_replay_undecoded named since undecoded,
    fun _ h => run_replay_moduleSyntax named h, ?_⟩
  · intro capabilities
    cases known : Capabilities.ofText name with
    | error e => rw [run_replay_error known, run_replay_error known]
    | ok c => rw [run_replay_ok known, run_replay_ok known]
  · intro supported later y hlater hle
    have hname := Capabilities.ofText_of_named named
    have hlater' := Capabilities.ofText_of_named hlater
    have reports : ∀ z : Release, Release.numbers ⟨0, 5, 0⟩ ≤ z.numbers → ∃ c, Capabilities.ofRelease z = .ok c := by
      intro z hz
      rw [Capabilities.ofRelease_eq, if_neg (not_lt.2 hz)]
      exact ⟨_, rfl⟩
    obtain ⟨c, hc⟩ := reports x supported
    obtain ⟨d, hd⟩ := reports y (le_trans supported hle)
    exact ⟨c, d, hname.trans hc, hlater'.trans hd, Capabilities.within_of_le hle hc hd⟩

end Annotator
end AnnotatedSource
