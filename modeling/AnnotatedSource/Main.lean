import AnnotatedSource.Command

set_option autoImplicit false

namespace AnnotatedSource.Program

def faultOf : IO.Error → ReadFault
  | .noFileOrDirectory .. => .notFound
  | .inappropriateType _ code _ => if code = 21 then .isDirectory else .notDirectory
  | e => .other e.toString

def readFile (path : String) : IO (Except ReadFault ByteArray) := do
  try return .ok (← IO.FS.readBinFile path)
  catch e => return .error (faultOf e)

def runWords (words : List String) : IO UInt32 := do
  let files ← (Command.paths words).mapM fun path => return (path, ← readFile path)
  let read : FileReader := fun path => (files.lookup path).getD (.error .notFound)
  let outcome := Command.run read words
  (← IO.getStderr).putStr outcome.stderr
  (← IO.getStdout).putStr outcome.stdout
  return .ofNat outcome.code

end AnnotatedSource.Program

def main (words : List String) : IO UInt32 := AnnotatedSource.Program.runWords words
