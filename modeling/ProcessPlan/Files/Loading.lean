import ProcessPlan.Config.Sections
import ProcessPlan.Files.Basic

/-!
# Loading an application

An application that does not say its name has that of the directory of its file.

## Main definitions

* `FileSystem.loadApp`, `FileSystem.loadProcess`, `FileSystem.loadAll`: the application of a file,
  and the descriptors of its processes
-/

namespace ProcessPlan

/-- The name of an application whose file is in no named directory. -/
def App.unnamed : String := "unnamed"

namespace FileSystem

/-- The application of a file. -/
def loadApp (fs : FileSystem) (path : String) : Except Fault App :=
  match fs.readText path with
  | .error error => .error (.unreadable path error)
  | .ok text => App.ofText ((Path.parentName? path).getD App.unnamed) text

/-- The descriptor of a process in a file. -/
def loadProcess (fs : FileSystem) (path process : String) (version : Option Version) :
    Except Fault Descriptor := do
  let app ← fs.loadApp path
  app.buildProcess process version

/-- The descriptors of all processes in a file, in order. -/
def loadAll (fs : FileSystem) (path : String) (version : Option Version) :
    Except Fault (List (String × Except Fault Descriptor)) := do
  let app ← fs.loadApp path
  return app.buildAll version

end FileSystem

end ProcessPlan
