import Countersign.Access.Registry

/-!
# Changes of an access registry

An `AccessCommand` is one of the registry's operations with its arguments. `AccessRegistry.step`
carries it out and `AccessRegistry.run` a sequence of them, of which the faulty ones change nothing.
-/

namespace Countersign

inductive AccessCommand where
  | defineRole (name : String) (maxMembers : UInt64) (isProtected : Bool)
  | addMember (role : RoleId) (identity : Identity)
  | removeMember (role : RoleId) (identity : Identity)
  | replaceMember (role : RoleId) (old new : Identity)
  | registerFunction (schema : FunctionSchema)
  | grant (role : RoleId) (selector : Selector) (actions : List Action)
  | revoke (role : RoleId) (selector : Selector) (actions : List Action)
  deriving DecidableEq, Repr

inductive AccessReply where
  | done
  | role (id : RoleId)
  | selector (selector : Selector)
  deriving DecidableEq, Repr

namespace AccessRegistry

variable (r : AccessRegistry)

def step : AccessCommand → Except Fault (AccessRegistry × AccessReply)
  | .defineRole name maxMembers isProtected =>
    (r.defineRole name maxMembers isProtected).map fun (r, id) => (r, .role id)
  | .addMember role identity => (r.addMember role identity).map (·, .done)
  | .removeMember role identity => (r.removeMember role identity).map (·, .done)
  | .replaceMember role old new => (r.replaceMember role old new).map (·, .done)
  | .registerFunction schema => (r.registerFunction schema).map fun (r, s) => (r, .selector s)
  | .grant role selector actions => (r.grant role selector actions).map (·, .done)
  | .revoke role selector actions => (r.revoke role selector actions).map (·, .done)

/-- The registry after a change, which is the same one if the change faults. -/
def after (c : AccessCommand) : AccessRegistry :=
  match r.step c with
  | .ok (r, _) => r
  | .error _ => r

def run (cs : List AccessCommand) : AccessRegistry := cs.foldl after r

end AccessRegistry

end Countersign
