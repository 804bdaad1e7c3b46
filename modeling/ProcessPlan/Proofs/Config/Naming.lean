import ProcessPlan.Config.Sections
import ProcessPlan.Proofs.Success

/-!
# The name that stands in for an undeclared one

A configuration is read into an application that has a name already, the one that the place of the
file suggests. The sections are read on top of it, and none of them looks at that name: whether a
configuration is accepted, the fault if it is not, and all of the application but its name are the
same under every such name.

## Main definitions

* `App.rename`: an application under another name

## Main results

* `App.rename_ofText`: but for the name, a text declares one application
-/

namespace ProcessPlan

/-- An application under another name. -/
def App.rename (app : App) (name : String) : App := { app with name }

namespace Config

/-- A section adds the same to an application under every name. -/
theorem addSection_rename (app : App) (name : String) (part : Section) :
    (addSection (app.rename name) part).map (·.rename name)
      = (addSection app part).map (·.rename name) := by
  cases part with
  | process spec =>
    have hprocess : (app.rename name).process? spec.name = app.process? spec.name := rfl
    simp only [addSection, hprocess]
    split <;> rfl
  | _ => rfl

theorem addNode_rename (app : App) (name : String) (node : Kdl.Node) :
    (addNode (app.rename name) node).map (·.rename name)
      = (addNode app node).map (·.rename name) := by
  rw [addNode, addNode]
  cases readSection node with
  | error fault => rfl
  | ok part => exact addSection_rename app name part

/-- A whole document is read in the same way on top of an application under every name. -/
theorem foldlM_addNode_rename (app : App) (name : String) (document : Kdl.Document) :
    (document.foldlM addNode (app.rename name)).map (·.rename name)
      = (document.foldlM addNode app).map (·.rename name) := by
  induction document generalizing app with
  | nil => rfl
  | cons node rest ih =>
    have hnode := addNode_rename app name node
    rw [List.foldlM_cons, List.foldlM_cons]
    rcases happ : addNode app node with fault | next <;>
      rcases hrenamed : addNode (app.rename name) node with fault' | next' <;>
      simp only [happ, hrenamed, Except.map, Except.ok.injEq, Except.error.injEq, reduceCtorEq]
        at hnode
    · rw [hnode]
    · -- Both applications go on from here, and they differ in their names alone.
      show (rest.foldlM addNode next').map (·.rename name) = (rest.foldlM addNode next).map _
      rw [← ih next', hnode, ih next]

end Config

namespace App

theorem rename_ofDocument (name name' other : String) (document : Kdl.Document) :
    (ofDocument name document).map (·.rename other)
      = (ofDocument name' document).map (·.rename other) := by
  have hblank (name : String) : (ofDocument name document).map (·.rename other)
      = (ofDocument other document).map (·.rename other) :=
    (Config.foldlM_addNode_rename (.blank name) other document).symm
  rw [hblank name, hblank name']

/-- But for the name, a text declares one application, or has one fault. -/
theorem rename_ofText (name name' other text : String) :
    (ofText name text).map (·.rename other) = (ofText name' text).map (·.rename other) := by
  rw [ofText, ofText]
  cases Kdl.Document.ofText? text with
  | none => rfl
  | some document =>
    show ((ofDocument name document).mapError Fault.badConfig).map _
      = ((ofDocument name' document).mapError Fault.badConfig).map _
    rw [← mapError_map, ← mapError_map, rename_ofDocument name name' other document]

end App

end ProcessPlan
