import DexAtlas.Zip.Format

/-!
The report of the command line: what a package holds, which instructions load a given string, and
which instructions call the methods of a given class.
-/
namespace DexAtlas.Report

open Text (hex zeroPad)

inductive Failure where
  | io (fault : IoFault)
  | package (error : PackageError)
  /-- An entity refers to a method that the package does not have. -/
  | dangling
  deriving DecidableEq, Repr

def Failure.text : Failure → String
  | .io fault => fault.text
  | .package error => error.text
  | .dangling => "dangling method key"

/-- Writes lines, and keeps those written so far when it fails. -/
abbrev Printer := EStateM Failure (Array String)

def line (text : String) : Printer Unit :=
  modify (·.push text)

/-- The offset of an instruction, with at least four digits. -/
def offset (site : Site) : String :=
  "@" ++ zeroPad 4 (hex site.offset)

def method (package : Package) (key : MethodKey) : Printer MethodEntity :=
  match package.graph.methods.get? key with
  | some method => return method
  | none => throw .dangling

def overview (package : Package) : Printer Unit := do
  package.failures.forM fun failure => line ("skipped " ++ failure.text)
  let images := package.images.size
  let classes := package.graph.classes.arena.countP fun c => !c.external
  let methods := package.graph.methods.size
  let external := package.externalMethods
  line s!"{images} image(s), {classes} classes, {methods} methods ({external} external)"

/-- Who loads a string. -/
def loads (package : Package) (value : String) : Printer Unit := do
  match package.stringOf? value with
  | none => line ("\"" ++ value ++ "\" is not in the string pool")
  | some literal => literal.loads.toList.forM fun site => do
    let user ← method package site.method
    line ("\"" ++ value ++ "\" loaded by " ++ user.fullName ++ " " ++ offset site)

/-- Who calls a method. -/
def callers (package : Package) (callee : MethodEntity) : Printer Unit :=
  callee.callers.toList.forM fun site => do
    let caller ← method package site.method
    line ("  " ++ callee.name ++ " <- " ++ caller.fullName ++ " " ++ offset site)

/-- Who calls the methods of a class. -/
def calls (package : Package) (name : String) : Printer Unit := do
  match package.classNamed? name with
  | none => line (name ++ " is not referenced")
  | some c =>
    line (c.javaName ++ if c.external then " (external)" else " (internal)")
    c.methods.toList.forM fun key => do
      callers package (← method package key)

/-- Opens a single image or, by the look of its path, an archive. Bad images are passed over. -/
def openFile (path : String) (content : Except IoFault Bytes) : Except Failure Package :=
  let options : Options := { skipBadImages := true }
  if path.endsWith ".dex" then
    match content with
    | .error fault => .error (.io fault)
    | .ok bytes => (Package.ofImages [(path, bytes)] options).outcome.mapError .package
  else
    match content with
    | .error fault => .error (.package (.io fault))
    | .ok bytes => (Package.ofArchive bytes options).outcome.mapError .package

/-- All of the report on one file. -/
def print (path : String) (content : Except IoFault Bytes) (value name : Option String) :
    Printer Unit := do
  let package ← match openFile path content with
    | .ok package => pure package
    | .error failure => throw failure
  overview package
  if let some value := value then loads package value
  if let some name := name then calls package name

/-- What a run of the program leaves behind. -/
structure Outcome where
  code : Nat
  output : String
  errors : String
  deriving DecidableEq, Repr

/-- Runs the program under a name with its arguments, given what the first of them, a path, leads
to. -/
def run (program : String) (arguments : List String) (content : Except IoFault Bytes) : Outcome :=
  match arguments with
  | [] => ⟨1, "", "Usage: " ++ program ++ " <apk-or-dex> [string] [class]\n"⟩
  | path :: rest =>
    match (print path content rest[0]? rest[1]?).run #[] with
    | .ok _ lines => ⟨0, written lines, ""⟩
    | .error failure lines => ⟨1, written lines, "Aborted due to error: " ++ failure.text ++ "\n"⟩
where
  written (lines : Array String) : String :=
    String.join (lines.toList.map (· ++ "\n"))

end DexAtlas.Report
