import DeclGraph.Store.Basic

/-! Projects of a store. -/
namespace DeclGraph.Store

def project? (store : Store) (name : String) : Option Project :=
  store.projects.rows.find? (·.name == name)

/-- Creates a project, or moves the one of that name to a new root. Either way a number is taken. -/
def putProject (store : Store) (name rootPath : String) : Project × Store :=
  match store.project? name with
  | some old =>
    let moved := { old with rootPath }
    (moved,
      { store with
        projects :=
          (store.projects.modify (fun row => if row.id = old.id then { row with rootPath } else row)
            (by intro row; split <;> rfl)).skip })
  | none =>
    let created (id : Int) : Project := { id, name, rootPath, generation := 0 }
    (created store.projects.next, { store with projects := store.projects.append created })

def beginGeneration (store : Store) (id : Int) : Except Error (Int × Store) :=
  match store.projects.find? id with
  | none => .error (.unknownProject id)
  | some project =>
    .ok (project.generation + 1,
      { store with
        projects := store.projects.modify
          (fun row => if row.id = id then { row with generation := row.generation + 1 } else row)
          (by intro row; split <;> rfl) })

end DeclGraph.Store
