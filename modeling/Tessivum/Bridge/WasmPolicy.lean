/-
Tessivum.Bridge.WasmPolicy — the authorization registry of running WASM plugin
instances (`WasmPolicyRegistry` of `src/bridge.rs`).

A registry holds two maps under one lock: the policy of each instance, and for
each plugin the loader entry that owns it with the count of its instances. A
policy is an object of its own with its own lock, shared by the map, the
registration that installed it and the leases of the calls it admitted. The
`k`-th installation is the `k`-th entry here and its registration is known by
`k`.

`revoke` has two sections, one under the lock of the maps and one under that of
the entry alone, and other calls may come in between. A registration may
outlive the registry, whose last handle may be dropped at any time and the maps
with it.

`revoked` in the system is no field of the source: the registrations whose
`revoke` has returned.
-/
import Tessivum.Library.Keyed
import Tessivum.Protocol.Message

namespace Tessivum.Bridge

open Library Protocol

/-- The greatest `usize`. -/
def usizeMax : Nat := 2 ^ 64 - 1

/-- `PluginError` of the phase `host`. -/
structure PluginError where
  code : String
  message : String
  deriving DecidableEq, Repr

def policyError (code message : String) : PluginError := { code, message }

/-- A single exact service/method grant. -/
structure ServiceMethodPermission where
  service : String
  method : String
  deriving DecidableEq, Repr

/-- Product authorization installed for one running WASM plugin instance. -/
structure WasmEffectivePolicy where
  pluginId : String
  instanceId : String
  entryId : String
  methods : List ServiceMethodPermission
  deriving DecidableEq, Repr

structure WasmPluginOwner where
  entryId : String
  instances : Nat
  deriving DecidableEq, Repr

/-- `WasmPolicyState`. -/
structure WasmPolicyEntry where
  pluginId : String
  methods : List ServiceMethodPermission
  revoked : Bool
  active : Nat
  deriving DecidableEq, Repr

def exactPermission (permission : ServiceMethodPermission) : Except PluginError Unit :=
  failIf (isBlank permission.service ∨ isBlank permission.method
      ∨ permission.service.toList.contains '*' ∨ permission.method.toList.contains '*')
    (policyError "MANIFEST_PERMISSION_INVALID"
      "service permissions must be exact nonblank names")

def validatePolicy (policy : WasmEffectivePolicy) : Except PluginError Unit := do
  failIf (isBlank policy.pluginId ∨ isBlank policy.instanceId ∨ isBlank policy.entryId)
    (policyError "MANIFEST_PERMISSION_INVALID"
      "plugin, instance, and entry ids must not be blank")
  forAllOk exactPermission policy.methods

/-- The registry with everything it handed out. `installed` is what each
registration was made with, of which it keeps the three ids, `revoking` are
the calls of `revoke` between their sections. -/
structure WasmPolicySystem where
  registryAlive : Bool
  policies : List (String × Nat)
  owners : String → Option WasmPluginOwner
  entries : List WasmPolicyEntry
  installed : List WasmEffectivePolicy
  leases : List Nat
  revoking : List Nat
  revoked : List Nat

def WasmPolicySystem.start : WasmPolicySystem :=
  { registryAlive := true, policies := [], owners := fun _ => none, entries := []
    installed := [], leases := [], revoking := [], revoked := [] }

inductive WasmPolicyStep where
  | install (policy : WasmEffectivePolicy)
  | authorize (instanceId pluginId service method : String)
  | revokeMaps (k : Nat)
  | revokeEntry (k : Nat)
  | dropLease (k : Nat)
  | dropRegistry
  deriving DecidableEq, Repr

def countInstance (owner : Option WasmPluginOwner) (policy : WasmEffectivePolicy) :
    Except PluginError WasmPluginOwner := do
  failIf (owner.any fun owner => owner.entryId ≠ policy.entryId)
    (policyError "PLUGIN_POLICY_ALREADY_REGISTERED" "plugin id belongs to another loader entry")
  let owner := owner.getD { entryId := policy.entryId, instances := 0 }
  failIf (usizeMax < owner.instances + 1)
    (policyError "RESOURCE_LIMIT" "too many plugin instances")
  .ok { owner with instances := owner.instances + 1 }

variable (s : WasmPolicySystem)

/-- The checks of `install` and the owner it writes. -/
def WasmPolicySystem.checkInstall (policy : WasmEffectivePolicy) :
    Except PluginError WasmPluginOwner := do
  validatePolicy policy
  failIf ((s.policies.lookup policy.instanceId).isSome)
    (policyError "PLUGIN_POLICY_ALREADY_REGISTERED"
      "a policy is already installed for this plugin instance")
  countInstance (s.owners policy.pluginId) policy

def WasmPolicySystem.install (policy : WasmEffectivePolicy) : WasmPolicySystem :=
  match s.checkInstall policy with
  | .error _ => s
  | .ok owner =>
    { s with
      policies := s.policies ++ [(policy.instanceId, s.entries.length)]
      owners := Function.update s.owners policy.pluginId (some owner)
      entries := s.entries ++
        [{ pluginId := policy.pluginId, methods := policy.methods, revoked := false, active := 0 }]
      installed := s.installed ++ [policy] }

def WasmPolicyEntry.admit (e : WasmPolicyEntry) (pluginId service method : String) :
    Except PluginError Unit := do
  failIf (e.revoked ∨ e.pluginId ≠ pluginId)
    (policyError "PLUGIN_POLICY_NOT_FOUND" "plugin policy is not installed")
  failIf ({ service, method } ∉ e.methods)
    (policyError "SERVICE_PERMISSION_DENIED" "service method is not permitted")
  failIf (usizeMax < e.active + 1)
    (policyError "RESOURCE_LIMIT" "too many active service calls")

/-- `WasmPolicyRegistry::authorize`: the entry of the lease, or an error. -/
def WasmPolicySystem.authorize (instanceId pluginId service method : String) :
    Except PluginError Nat :=
  match s.policies.lookup instanceId with
  | none => .error (policyError "PLUGIN_POLICY_NOT_FOUND" "plugin policy is not installed")
  | some k =>
    match s.entries[k]? with
    | none => .error (policyError "PLUGIN_POLICY_NOT_FOUND" "plugin policy is not installed")
    | some e => ( e.admit pluginId service method).map fun _ => k

/-- An owner with one instance fewer, if it is the one of the loader
entry. -/
def releaseInstance (owner : Option WasmPluginOwner) (entryId : String) :
    Option WasmPluginOwner :=
  match owner with
  | none => none
  | some owner =>
    if owner.entryId = entryId then
      if owner.instances - 1 = 0 then none
      else some { owner with instances := owner.instances - 1 }
    else some owner

def WasmPolicySystem.markRevoked (k : Nat) : WasmPolicySystem :=
  { s with entries := s.entries.modify k fun e => { e with revoked := true } }

/-- The section of `revoke` under the lock of the maps. It does nothing
when the registry is gone or another installation has the instance. -/
def WasmPolicySystem.revokeMaps (k : Nat) : WasmPolicySystem :=
  match s.installed[k]? with
  | none => s
  | some policy =>
    let s := { s with revoking := k :: s.revoking }
    if s.registryAlive ∧ s.policies.lookup policy.instanceId = some k then
      { s.markRevoked k with
        policies := Keyed.without policy.instanceId s.policies
        owners := Function.update s.owners policy.pluginId
          (releaseInstance (s.owners policy.pluginId) policy.entryId) }
    else s

/-- The section of `revoke` under the lock of the entry, and its return. -/
def WasmPolicySystem.revokeEntry (k : Nat) : WasmPolicySystem :=
  if k ∈ s.revoking then
    { s.markRevoked k with revoking := s.revoking.erase k, revoked := k :: s.revoked }
  else s

/-- `WasmPolicyLease::drop`. -/
def WasmPolicySystem.dropLease (k : Nat) : WasmPolicySystem :=
  if k ∈ s.leases then
    { s with
      leases := s.leases.erase k
      entries := s.entries.modify k fun e => { e with active := e.active - 1 } }
  else s

/-- What `drain` returns when it looks at the entry for the last time. -/
def WasmPolicySystem.drain (s : WasmPolicySystem) (k : Nat) : Except PluginError Unit :=
  match s.entries[k]? with
  | none => .ok ()
  | some e =>
    failIf (e.active ≠ 0) (policyError "RESOURCE_LIMIT" "service calls did not drain in time")

/-- One step. Without the registry there is nobody to call `install` or
`authorize`. -/
def WasmPolicySystem.step : WasmPolicyStep → WasmPolicySystem
  | .install policy => if s.registryAlive then s.install policy else s
  | .authorize instanceId pluginId service method =>
    if s.registryAlive then
      match s.authorize instanceId pluginId service method with
      | .ok k =>
        { s with
          leases := k :: s.leases
          entries := s.entries.modify k fun e => { e with active := e.active + 1 } }
      | .error _ => s
    else s
  | .revokeMaps k => s.revokeMaps k
  | .revokeEntry k => s.revokeEntry k
  | .dropLease k => s.dropLease k
  | .dropRegistry => { s with registryAlive := false, policies := [], owners := fun _ => none }

def WasmPolicySystem.run (steps : List WasmPolicyStep) : WasmPolicySystem :=
  steps.foldl WasmPolicySystem.step s

end Tessivum.Bridge
