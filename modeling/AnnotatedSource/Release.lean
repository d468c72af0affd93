import AnnotatedSource.Number
import AnnotatedSource.Text.Quoting

set_option autoImplicit false

namespace AnnotatedSource

structure Release where
  major : UInt64
  minor : UInt64
  patch : UInt64
deriving DecidableEq, Repr

inductive ReleaseError where
  | malformed (text : String)
  | unsupported (release minimum : Release)
deriving DecidableEq, Repr

namespace Release

def text (r : Release) : String :=
  r.major.toNat.repr ++ "." ++ r.minor.toNat.repr ++ "." ++ r.patch.toNat.repr

/-- One number of a release: decimal digits only, of a value that fits 64 bits. -/
def component? (digits : List Char) : Option UInt64 :=
  match Text.number? 10 digits with
  | some n => if Word.holds n then some (.ofNat n) else none
  | none => none

def ofText? (s : String) : Option Release :=
  match Text.splitOn '.' s.toList with
  | [a, b, c] =>
    match component? a, component? b, component? c with
    | some major, some minor, some patch => some ⟨major, minor, patch⟩
    | _, _, _ => none
  | _ => none

def ofText (s : String) : Except ReleaseError Release :=
  match ofText? s with
  | some r => .ok r
  | none => .error (.malformed s)

def isLower (a b : Release) : Bool :=
  decide (a.major < b.major) ||
    (a.major == b.major && (decide (a.minor < b.minor) ||
      (a.minor == b.minor && decide (a.patch < b.patch))))

def isLowerText (a b : String) : Except ReleaseError Bool := do
  let first ← ofText a
  let second ← ofText b
  return first.isLower second

def oldest : Release := ⟨0, 5, 0⟩

def firstWithExports : Release := ⟨1, 0, 0⟩

def firstWithSyntaxFlag : Release := ⟨1, 5, 0⟩

end Release

namespace ReleaseError

def message : ReleaseError → String
  | malformed text => "invalid version: " ++ Text.inspect text
  | unsupported release minimum =>
    "version " ++ release.text ++ " is older than the minimum supported " ++ minimum.text

end ReleaseError

structure Capabilities where
  exportRecords : Bool
  syntaxFlag : Bool
deriving DecidableEq, Repr

namespace Capabilities

def latest : Capabilities := ⟨true, true⟩

def ofRelease (r : Release) : Except ReleaseError Capabilities :=
  if r.isLower .oldest then .error (.unsupported r .oldest)
  else .ok ⟨!r.isLower .firstWithExports, !r.isLower .firstWithSyntaxFlag⟩

def ofText (s : String) : Except ReleaseError Capabilities :=
  Release.ofText s >>= ofRelease

def text (c : Capabilities) : String :=
  "export-records: " ++ Text.ofBool c.exportRecords ++ "\nmodule-syntax-flag: " ++ Text.ofBool c.syntaxFlag

end Capabilities
end AnnotatedSource
