/-
ResilientMesh/Registry.lean

The service repository: the registered services by their URL, and the four
calls that read or change them.  What the instances answer is given from
outside, as what a health check or a workload call made at this point would
end in (`Instances`); so are the two library functions whose tables are not
worth repeating, `URI.create` and the folding of letter case (`Java`).

A service is what was registered without its workload (`service`): lookups
overwrite the workload of the stored objects in place, and the duplicate check
compares whole objects.
-/
import ResilientMesh.ListMap

namespace ResilientMesh

/-! ### Data -/

structure MicroserviceInfo where
  msName : String
  msPort : ℕ
  msDescription : String
  msFunction : String
  msType : String
  workload : ℤ
  deriving DecidableEq

/-- The constraints that `/register` validates. -/
structure MicroserviceInfo.Valid (msInfo : MicroserviceInfo) : Prop where
  msName : 1 ≤ msInfo.msName.length
  msPort : 1 ≤ msInfo.msPort ∧ msInfo.msPort ≤ 65535
  msDescription : 1 ≤ msInfo.msDescription.length
  msFunction : 1 ≤ msInfo.msFunction.length
  msType : 1 ≤ msInfo.msType.length

/-- The five fields that say which service it is. -/
def MicroserviceInfo.service (msInfo : MicroserviceInfo) : String × ℕ × String × String × String :=
  (msInfo.msName, msInfo.msPort, msInfo.msDescription, msInfo.msFunction, msInfo.msType)

/-- How a remote call fails. -/
inductive RemoteException
  | resourceAccess
  | other
  deriving DecidableEq

inductive RegistryException
  | serviceAlreadyRegistered
  | illegalArgument
  | nullPointer
  | remote (e : RemoteException)
  deriving DecidableEq

/-- The two Java library functions left open: whether `URI.create` accepts a
text, and the character that `equalsIgnoreCase` compares in place of another. -/
structure Java where
  uriCreate : String → Bool
  fold : Char → Char

/-- What the instances do: the answer of the `k`-th attempt to reach `/health`
of a URL, and that of the workload call to a URL with a function, for the
`j`-th entry there. -/
structure Instances where
  health : String → ℕ → Except RemoteException (Option String)
  workload : String → String → ℕ → Except RemoteException (Option ℤ)

/-- `registeredMicroservices`. -/
abbrev Registry := ListMap String MicroserviceInfo

def getUrlFromMsInfo (msInfo : MicroserviceInfo) : String :=
  "http://" ++ msInfo.msName ++ ":" ++ toString msInfo.msPort

def equalsIgnoreCase (java : Java) (s t : String) : Bool :=
  s.toList.map java.fold == t.toList.map java.fold

/-! ### Registering -/

def isServiceRegistered (registry : Registry) (msInfo : MicroserviceInfo) (msUrl : String) :
    Except RegistryException Unit :=
  match registry.lookup msUrl with
  | some registeredMsInfo =>
    -- `equals` compares all six fields, the workload among them
    if registeredMsInfo.any fun stored => msInfo = stored then .error .serviceAlreadyRegistered
    else .ok ()
  | none => .ok ()

def registerMs (registry : Registry) (msInfo : MicroserviceInfo) (msUrl : String) : Registry :=
  registry.push msUrl msInfo

def registerMicroservice (registry : Registry) (msInfo : MicroserviceInfo) :
    Except RegistryException Unit × Registry :=
  let msUrl := getUrlFromMsInfo msInfo
  match isServiceRegistered registry msInfo msUrl with
  | .error e => (.error e, registry)
  | .ok () => (.ok (), registerMs registry msInfo msUrl)

/-! ### Reading -/

def getRegisteredServices (registry : Registry) : List MicroserviceInfo := registry.values

/-- The workload that an instance reports for one of its entries. -/
def getWorkload (java : Java) (instances : Instances) (j : ℕ) (msInfo : MicroserviceInfo) :
    Except RegistryException (Option ℤ) :=
  let url := getUrlFromMsInfo msInfo
  if java.uriCreate url then
    match instances.workload url msInfo.msFunction j with
    | .error e => .error (.remote e)
    | .ok workload => .ok workload
  else .error .illegalArgument

/-- What a lookup does to one entry: a calculation has its workload set, which
fails on null. -/
def refreshWorkload (java : Java) (instances : Instances) (_msUrl : String) (j : ℕ)
    (msInfo : MicroserviceInfo) : Except RegistryException MicroserviceInfo :=
  if equalsIgnoreCase java "calculation" msInfo.msType then
    match getWorkload java instances j msInfo with
    | .error e => .error e
    -- a null cannot be unboxed
    | .ok none => .error .nullPointer
    | .ok (some workload) => .ok { msInfo with workload := workload }
  else .ok msInfo

/-- `getRegisteredServicesByFunction`; the function may be null. -/
def getRegisteredServicesByFunction (java : Java) (instances : Instances) (registry : Registry)
    (function : Option String) : Except RegistryException (List MicroserviceInfo) × Registry :=
  match function with
  | none => (.ok [], registry)
  | some function =>
    let refreshed := registry.edit (refreshWorkload java instances)
    match refreshed.2 with
    | some e => (.error e, refreshed.1)
    | none =>
      (.ok ((getRegisteredServices refreshed.1).filter fun s =>
        equalsIgnoreCase java function s.msFunction), refreshed.1)

/-- The metrics of the entries of one URL, from the `j`-th on. -/
def metricsFrom (java : Java) (instances : Instances) :
    ℕ → List MicroserviceInfo → Except RegistryException (List (MicroserviceInfo × Option ℤ))
  | _, [] => .ok []
  | j, msInfo :: rest =>
    if equalsIgnoreCase java "calculation" msInfo.msType then do
      let workload ← getWorkload java instances j msInfo
      let metrics ← metricsFrom java instances (j + 1) rest
      return (msInfo, workload) :: metrics
    else metricsFrom java instances (j + 1) rest

def getMetrics (java : Java) (instances : Instances) (registry : Registry) :
    Except RegistryException (List (MicroserviceInfo × Option ℤ)) :=
  (registry.entries.mapM fun e => metricsFrom java instances 0 e.2).map List.flatten

/-! ### The sweep -/

/-- `retryWhenError`, with `attempts` left and the `k`-th to come; after the
last, `recover` returns null. -/
def retryFrom (health : ℕ → Except RemoteException (Option String)) : ℕ → ℕ → Option String
  | 0, _ => none
  | attempts + 1, k =>
    match health k with
    | .ok answer => answer
    | .error _ => retryFrom health attempts (k + 1)

def maxAttempts : ℕ := 3

def retryWhenError (instances : Instances) (uri : String) : Option String :=
  retryFrom (instances.health uri) maxAttempts 0

def checkHealth (java : Java) (instances : Instances) (msUrl : String) :
    Except RegistryException (Option String) :=
  if java.uriCreate msUrl then .ok (retryWhenError instances msUrl)
  else .error .illegalArgument

/-- The first loop of the sweep: the URLs to remove.  Only a
`ResourceAccessException` is caught. -/
def toRemove (java : Java) (instances : Instances) :
    List String → Except RegistryException (List String)
  | [] => .ok []
  | msUrl :: rest =>
    match checkHealth java instances msUrl with
    | .ok answer =>
      if answer ≠ some "OK" then (toRemove java instances rest).map fun urls => msUrl :: urls
      else toRemove java instances rest
    | .error (.remote .resourceAccess) =>
      (toRemove java instances rest).map fun urls => msUrl :: urls
    | .error e => .error e

/-- `deregisterMicroservice`: the removed list is read, which fails on null. -/
def deregisterMicroservice (registry : Registry) (msUrl : String) :
    Except RegistryException Unit × Registry :=
  match registry.lookup msUrl with
  | some _ => (.ok (), registry.erase msUrl)
  | none => (.error .nullPointer, registry)

/-- The second loop of the sweep. -/
def deregisterAll : List String → Registry → Except RegistryException Unit × Registry
  | [], registry => (.ok (), registry)
  | msUrl :: rest, registry =>
    match deregisterMicroservice registry msUrl with
    | (.ok (), registry) => deregisterAll rest registry
    | (.error e, registry) => (.error e, registry)

def removeDeadMicroservices (java : Java) (instances : Instances) (registry : Registry) :
    Except RegistryException Unit × Registry :=
  match toRemove java instances registry.keys with
  | .error e => (.error e, registry)
  | .ok urls => deregisterAll urls registry

/-! ### Calls -/

/-- A call to the repository, with what the instances do during it. -/
inductive RegistryCall
  | registerMicroservice (msInfo : MicroserviceInfo)
  | getRegisteredServicesByFunction (instances : Instances) (function : Option String)
  | getMetrics (instances : Instances)
  | removeDeadMicroservices (instances : Instances)

/-- What `/register` has validated. -/
def RegistryCall.Valid : RegistryCall → Prop
  | registerMicroservice msInfo => msInfo.Valid
  | _ => True

inductive RegistryAnswer
  | done
  | services (services : List MicroserviceInfo)
  | metrics (metrics : List (MicroserviceInfo × Option ℤ))

/-- One call, alone. -/
def serveRegistry (java : Java) (call : RegistryCall) (registry : Registry) :
    Except RegistryException RegistryAnswer × Registry :=
  match call with
  | .registerMicroservice msInfo =>
    let r := registerMicroservice registry msInfo
    (r.1.map fun _ => .done, r.2)
  | .getRegisteredServicesByFunction instances function =>
    let r := getRegisteredServicesByFunction java instances registry function
    (r.1.map .services, r.2)
  | .getMetrics instances => ((getMetrics java instances registry).map .metrics, registry)
  | .removeDeadMicroservices instances =>
    let r := removeDeadMicroservices java instances registry
    (r.1.map fun _ => .done, r.2)

/-- A call that was made: the registry before and after, and the answer. -/
structure RegistryEntry where
  call : RegistryCall
  pre : Registry
  answer : Except RegistryException RegistryAnswer
  post : Registry

/-- Calls one after another, from the empty registry.  A hash map may be
iterated in any order, so each call may find its entries in another one. -/
inductive RegistryRun (java : Java) : List RegistryEntry → Registry → Prop
  | init : RegistryRun java [] ∅
  | call {log : List RegistryEntry} {registry pre : Registry} (call : RegistryCall) :
      RegistryRun java log registry → registry.entries.Perm pre.entries → call.Valid →
      RegistryRun java
        (log ++ [⟨call, pre, (serveRegistry java call pre).1, (serveRegistry java call pre).2⟩])
        (serveRegistry java call pre).2

end ResilientMesh
