import KeyScore.Duration

/-!
# Jobs

What a program does, one effect after the other: it reads and writes whole files, reads its
input, prints, and ends with an exit code. A job can be carried out on the machine, or run
on a folder of files in memory, where messages and waits leave no trace.
-/

namespace KeyScore.Command

abbrev Bytes := List UInt8

inductive Job where
  | done (code : Nat)
  /-- A file that cannot be read gives nothing. -/
  | readFile (path : String) (next : Option Bytes → Job)
  | readInput (next : Bytes → Job)
  /-- Goes on with whether it worked. -/
  | writeFile (path : String) (content : Bytes) (next : Bool → Job)
  | print (text : String) (next : Job)
  /-- A message to whoever watches the program. -/
  | tell (text : String) (next : Job)
  | wait (length : Duration) (next : Job)

/-- A job that failed. -/
def Job.fail (message : String) : Job := .tell message (.done 1)

/-- Files by name, in a single folder. -/
structure Folder where
  files : List (String × Bytes) := []

namespace Folder

/-- A name that a file can have; a longer one finds no place in a folder. -/
def isName (name : String) : Bool :=
  name ≠ "" && name ≠ "." && name ≠ ".." && name.utf8ByteSize ≤ 255

/-- The name of the file at a path. Paths lead into the folder itself only. -/
def name? (path : String) : Option String :=
  let parts := match path.splitOn "/" with
    | "." :: parts => parts.dropWhile fun part => part = "" ∨ part = "."
    | parts => parts
  match parts with
  | [name] => if isName name then some name else none
  | _ => none

def read? (folder : Folder) (path : String) : Option Bytes :=
  (name? path).bind fun name => folder.files.lookup name

/-- Writes a file, over the one of that name if there is one. -/
def write? (folder : Folder) (path : String) (content : Bytes) : Option Folder :=
  (name? path).map fun name =>
    ⟨(name, content) :: folder.files.filter fun file => file.1 ≠ name⟩

end Folder

/-- How a job ended. -/
structure Ending where
  code : Nat
  printed : String
  folder : Folder

/-- Runs a job on files in memory and a given input. -/
def Job.runIn (folder : Folder) (input : Bytes) : Job → Ending
  | done code => ⟨code, "", folder⟩
  | readFile path next => (next (folder.read? path)).runIn folder input
  | readInput next => (next input).runIn folder []
  | writeFile path content next =>
    match folder.write? path content with
    | some folder => (next true).runIn folder input
    | none => (next false).runIn folder input
  | print text next =>
    let ending := next.runIn folder input
    { ending with printed := text ++ ending.printed }
  | tell _ next => next.runIn folder input
  | wait _ next => next.runIn folder input

end KeyScore.Command
