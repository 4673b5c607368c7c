import DexAtlas.Report

/-! The command line. -/
namespace DexAtlas

/-- The content of a file. -/
def fileContent (path : String) : IO (Except IoFault Bytes) := do
  try
    return .ok (← IO.FS.readBinFile path).data
  catch
    | .noFileOrDirectory .. => return .error .notFound
    | failure => return .error (.reported (toString failure))

end DexAtlas

open DexAtlas in
def main (arguments : List String) : IO UInt32 := do
  let content ← match arguments with
    | [] => pure (.error .notFound)
    | path :: _ => fileContent path
  let outcome := Report.run "apk_xrefs" arguments content
  (← IO.getStdout).putStr outcome.output
  (← IO.getStderr).putStr outcome.errors
  return UInt32.ofNat outcome.code
