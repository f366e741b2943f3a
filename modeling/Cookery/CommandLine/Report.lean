import Cookery.CommandLine.Invocation

/-!
# Reports: what an invocation prints, and its exit code

* `Report`              exit code, output, complaint, and the events on the way;
* `loadRecipe`          a recipe from the bytes of its file;
* `Command.report`      a command on its recipe file;
* `Invocation.report`   any invocation, given a way to read files.
-/

namespace Cookery

structure Report where
  exitCode : Nat
  output : String := ""
  complaint : String := ""
  events : List Event := []

def Report.failed (e : Error) (events : List Event) : Report where
  exitCode := 1
  complaint := e.message ++ "\n"
  events := events

/-- the document in a recipe file; errors name the file -/
def loadDocument (path : String) (content : Except FileFault ByteArray) :
    Except Error Document :=
  let unread (fault : FileFault) : Error :=
    .inContext (.file fault) ("Could not read recipe file " ++ path)
  match content with
  | .error fault => .error (unread fault)
  | .ok bytes =>
    match String.fromUTF8? bytes with
    | none => .error (unread .notText)
    | some source =>
      match Document.parse source with
      | .error e => .error (.inContext e.toError ("Failed to parse recipe " ++ path))
      | .ok document => .ok document

/-- a command, given what is in its recipe file -/
def Command.report (c : Command) (content : Except FileFault ByteArray) : Report :=
  match loadDocument c.recipe content with
  | .error e => .failed e []
  | .ok document =>
    match c with
    | .run _ limit =>
      match document.recipe.run limit with
      | ⟨.error e, _, events⟩ => .failed e (document.events ++ events)
      | ⟨.ok text, _, events⟩ =>
        { exitCode := 0, output := text, events := document.events ++ events }
    | .check _ =>
      { exitCode := 0
        output := document.main.title ++ " (serves " ++ toString document.servings ++ ")\n"
        events := document.events }

def versionText : String := "chef 0.1.0\n"

def usageText : String :=
  "Usage: chef [-v] run <recipe> [--max-iterations <N>]\n       chef [-v] check <recipe>\n"

/-- the report of an invocation; a misuse has exit code 2 -/
def Invocation.report (i : Invocation) (read : String → Except FileFault ByteArray) : Report :=
  match i with
  | .command _ c => c.report (read c.recipe)
  | .version => { exitCode := 0, output := versionText }
  | .help => { exitCode := 0, output := usageText }
  | .misuse => { exitCode := 2, complaint := usageText }

end Cookery
