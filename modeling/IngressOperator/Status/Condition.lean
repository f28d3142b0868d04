import IngressOperator.Resource.Ingress

/-!
# Lists of conditions

Setting a condition changes the first one of its type or adds it at the end; the time of a change is that of the last flip of
the status. Each operation also says whether it changed anything.
-/

namespace IngressOperator.Condition

/-- The condition with status, reason and message of a new one; its time moves only with the status. -/
def refresh (old new : Condition) : Condition :=
  { old with
    status := new.status
    lastTransitionTime := if old.status = new.status then old.lastTransitionTime else new.lastTransitionTime
    reason := new.reason
    message := new.message }

/-- Whether a new condition says something else than the one it replaces. -/
def differs (old new : Condition) : Bool :=
  old.status != new.status || old.reason != new.reason || old.message != new.message

/-- Sets a condition, and says whether anything changed. -/
def set (new : Condition) : List Condition → List Condition × Bool
  | [] => ([new], true)
  | c :: cs =>
    if c.type = new.type then (refresh c new :: cs, differs c new)
    else
      let (cs, changed) := set new cs
      (c :: cs, changed)

/-- Removes the conditions of a type, and says whether there were any. -/
def remove (t : ConditionType) (cs : List Condition) : List Condition × Bool :=
  (cs.filter fun c => c.type != t, cs.any fun c => c.type == t)

/-- The first condition of a type. -/
def find? (t : ConditionType) (cs : List Condition) : Option Condition := cs.find? fun c => c.type == t

/-- Whether the first condition of a type holds. -/
def isTrue (t : ConditionType) (cs : List Condition) : Bool := (find? t cs).any fun c => c.status == .true

end IngressOperator.Condition
