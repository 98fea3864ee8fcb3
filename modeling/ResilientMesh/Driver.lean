/-
ResilientMesh/Driver.lean

The load driver (microservices/app-driver).  `/simulate` opens five accounts,
and then pays into each of them and starts a thread with one random request,
round after round, until a global flag is set: by itself when its time is over,
by another simulation, or by `/stop`.

A request of the driver goes through the ingress gateway, which waits for every
attempt, to the control-center.  Between the driver and the gateway it may be
lost on either way, which `requests.post` raises.  The loop has no bound of its
own, so `fuel` bounds its rounds.
-/
import ResilientMesh.JsonBodies
import ResilientMesh.MeshAccounts
import ResilientMesh.Forwarding
import ResilientMesh.RelyGuarantee

namespace ResilientMesh

/-! ### Operations -/

/-- What has been assigned to `shouldStop`. -/
inductive StopFlag
  | bool (b : Bool)
  | text (s : Option String)

/-- Whether `while not shouldStop` ends. -/
def StopFlag.truthy : StopFlag → Bool
  | bool b => b
  | text none => false
  | text (some s) => s ≠ ""

/-- The steps of the driver's threads; `σ` names the simulations. -/
inductive DriverOp (σ : Type)
  | connect
  | upstream (op : Upstream)
  | receive
  | setShouldStop (flag : StopFlag)
  | shouldStop
  | choice (options : List String)
  | randint (low high : ℤ)
  -- `Thread(..).start()`, and the first step of the thread
  | start (s : σ) (k : ℕ) (body : String)
  | run (s : σ) (k : ℕ)
  | getAnalytics
  | currentTimeSeconds
  | sleep

variable {σ : Type}

abbrev DriverOp.Ans : DriverOp σ → Type
  | connect => Except PyError Unit
  | upstream op => op.Ans
  | receive => Except PyError Unit
  | setShouldStop _ => Unit
  | shouldStop => Bool
  | choice _ => String
  | randint _ _ => ℤ
  | start _ _ _ => Unit
  | run _ _ => String
  | getAnalytics => Except PyError Unit
  | currentTimeSeconds => ℤ
  | sleep => Unit

abbrev DriverProg (σ α : Type) := Prog (DriverOp σ) (DriverOp.Ans (σ := σ)) α

abbrev DriverEvent (σ : Type) := Event (DriverOp σ) DriverOp.Ans

/-- What a thread ends in; there is no response if the fuel is used up. -/
abbrev DriverOutcome := Except PyError (Option Response)

namespace Driver

/-- Go on with the result, unless it is an exception. -/
def orRaise {α β : Type} (p : DriverProg σ (Except PyError α))
    (next : α → DriverProg σ (Except PyError β)) : DriverProg σ (Except PyError β) :=
  p.bind fun r =>
    match r with
    | .error e => .ret (.error e)
    | .ok a => next a

/-! ### Requests -/

/-- What the control-center does for the driver. -/
def ofControl {α : Type} : ControlProg α → DriverProg σ α
  | .ret a => .ret a
  | .call op next => .call (.upstream op) fun a => ofControl (next a)

/-- `requests.post(url)` to the ingress gateway. -/
def requestsPost (attempts : ℕ) (handler : ControlHandler) :
    DriverProg σ (Except PyError Response) :=
  .call .connect fun sent =>
    match sent with
    | .error e => .ret (.error e)
    | .ok () =>
      (ofControl (withRetries attempts (answered handler))).bind fun response =>
        .call .receive fun received =>
          match received with
          | .error e => .ret (.error e)
          | .ok () => .ret (.ok response)

def users : List String := ["ruslan", "alexandra", "hannes", "daniel", "ivan"]

def calculationType : List String := ["add", "multiply", "fibonacci", "prime"]

/-- `BASE_URL + 'createAccount?user=' + u`. -/
def postCreate (attempts : ℕ) (u : String) : DriverProg σ (Except PyError Response) :=
  requestsPost attempts (ControlCenter.addAccount (billingRequest .post ("user=" ++ u)))

/-- `BASE_URL + 'depositAccount?user=' + u + '&amount=' + str(amount)`. -/
def postDeposit (attempts : ℕ) (amount : ℤ) (u : String) :
    DriverProg σ (Except PyError Response) :=
  requestsPost attempts (ControlCenter.depositAccount
    (billingRequest .post ("user=" ++ u ++ "&amount=" ++ toString amount)))

/-! ### Handlers -/

/-- `create_response("OK", 200)`. -/
def createResponseOk : Response := ⟨200, .text "\"OK\"\n"⟩

def getRandomBody : DriverProg σ String :=
  .call (.choice users) fun user =>
    .call (.choice calculationType) fun calculation =>
      .call (.randint 1 100) fun price =>
        .call (.randint 100 30000) fun firstNumber =>
          .call (.randint 100 30000) fun secondNumber =>
            .ret (RequestBody.text ⟨user, calculation, price, firstNumber, secondNumber⟩)

/-- A thread: `random_request` with the body it was given. -/
def randomRequest (py : PyJson) (attempts : ℕ) (s : σ) (k : ℕ) : DriverProg σ DriverOutcome :=
  .call (.run s k) fun body =>
    orRaise (requestsPost attempts (calculate2 (py.getJson body))) fun response =>
      .ret (.ok (some response))

/-- `for u in users`. -/
def forUsers (request : String → DriverProg σ (Except PyError Unit)) :
    List String → DriverProg σ (Except PyError Unit)
  | [] => .ret (.ok ())
  | u :: rest => orRaise (request u) fun _ => forUsers request rest

/-- The first loop: open an account, and pay 1000 into it. -/
def openAccount (attempts : ℕ) (u : String) : DriverProg σ (Except PyError Unit) :=
  orRaise (postCreate attempts u) fun _ =>
    orRaise (postDeposit attempts 1000 u) fun _ => .ret (.ok ())

/-- The second loop: pay 100 into an account. -/
def fillAccount (attempts : ℕ) (u : String) : DriverProg σ (Except PyError Unit) :=
  orRaise (postDeposit attempts 100 u) fun _ => .ret (.ok ())

/-- `int(duration)`. -/
def intDuration : Option String → Except PyError ℤ
  | none => .error .typeError
  | some duration =>
    match pyInt duration.toList with
    | none => .error .valueError
    | some d => .ok d

def checkIfShouldStopWorks (duration : Option String) (startTime : ℤ) :
    DriverProg σ (Except PyError Unit) :=
  match intDuration duration with
  | .error e => .ret (.error e)
  | .ok d =>
    .call .currentTimeSeconds fun now =>
      if startTime + d * 1000 ≤ now then .call (.setShouldStop (.bool true)) fun _ => .ret (.ok ())
      else .ret (.ok ())

/-- `while not shouldStop`, from round `k` on. -/
def simulateFrom (attempts : ℕ) (s : σ) (duration : Option String) (startTime : ℤ) :
    ℕ → ℕ → DriverProg σ DriverOutcome
  | 0, _ => .ret (.ok none)
  | fuel + 1, k =>
    .call .shouldStop fun stop =>
      if stop then .ret (.ok (some createResponseOk))
      else
        orRaise (forUsers (fillAccount attempts) users) fun _ =>
          getRandomBody.bind fun body =>
            .call (.start s k body) fun _ =>
              orRaise (.call .getAnalytics .ret) fun _ =>
                orRaise (checkIfShouldStopWorks duration startTime) fun _ =>
                  .call .sleep fun _ => simulateFrom attempts s duration startTime fuel (k + 1)

def simulate (attempts fuel : ℕ) (s : σ) (req : Request) : DriverProg σ DriverOutcome :=
  .call .currentTimeSeconds fun startTime =>
    -- the address is a text only if both parts were given
    match req.get "ip", req.get "port" with
    | some _, some _ =>
      .call (.setShouldStop (.bool false)) fun _ =>
        orRaise (forUsers (openAccount attempts) users) fun _ =>
          simulateFrom attempts s (req.get "duration") startTime fuel 0
    | _, _ => .ret (.error .typeError)

def stop (req : Request) : DriverProg σ DriverOutcome :=
  .call (.setShouldStop (.text (req.get "shouldStop"))) fun _ => .ret (.ok (some createResponseOk))

end Driver

/-! ### The driver and the mesh -/

/-- The threads: simulations, their requests by round, calls of `/stop`, and
other clients of the mesh. -/
inductive DriverThread (σ ρ κ : Type)
  | simulate (s : σ)
  | request (s : σ) (k : ℕ)
  | stop (r : ρ)
  | client (j : κ)
  deriving DecidableEq

/-- What the threads share; `pending` are the threads that were started and
have not run yet. -/
structure DriverState (σ : Type) where
  accounts : Users
  shouldStop : StopFlag
  pending : List ((σ × ℕ) × String)

variable {ρ κ : Type} [DecidableEq σ] [DecidableEq ρ] [DecidableEq κ]

/-- One step. -/
def driverServe : Server (DriverState σ) (DriverOp σ) DriverOp.Ans := fun s op ans s' =>
  match op, ans with
  | .upstream op, ans =>
    meshServe s.accounts op ans s'.accounts ∧ s' = { s with accounts := s'.accounts }
  | .setShouldStop flag, _ => s' = { s with shouldStop := flag }
  | .shouldStop, b => b = s.shouldStop.truthy ∧ s' = s
  | .choice options, option => option ∈ options ∧ s' = s
  | .randint low high, n => low ≤ n ∧ n ≤ high ∧ s' = s
  | .start i k body, _ => s' = { s with pending := ((i, k), body) :: s.pending }
  | .run i k, body => ((i, k), body) ∈ s.pending ∧
      s' = { s with pending := s.pending.erase ((i, k), body) }
  | _, _ => s' = s

/-- What runs: the requests of the simulations, the calls of `/stop`, the other
clients, and the settings of the gateway and of the loop's bound. -/
structure DriverSetup (σ ρ κ : Type) where
  py : PyJson
  attempts : ℕ
  fuel : σ → ℕ
  simulations : σ → Request
  stops : ρ → Request
  clients : κ → Client

def DriverSetup.prog (setup : DriverSetup σ ρ κ) : DriverThread σ ρ κ → DriverProg σ DriverOutcome
  | .simulate s => Driver.simulate setup.attempts (setup.fuel s) s (setup.simulations s)
  | .request s k => Driver.randomRequest setup.py setup.attempts s k
  | .stop r => Driver.stop (setup.stops r)
  | .client j => Driver.ofControl ((setup.clients j).prog.bind fun response =>
      .ret (.ok (some response)))

/-- Before anything has happened. -/
def driverStart (setup : DriverSetup σ ρ κ) (accounts : Users) :
    Pool (DriverThread σ ρ κ) (DriverState σ) (DriverOp σ) DriverOp.Ans DriverOutcome :=
  ⟨⟨accounts, .bool false, []⟩, setup.prog⟩

abbrev DriverEntry (σ ρ κ : Type) :=
  Entry (DriverThread σ ρ κ) (DriverState σ) (DriverOp σ) DriverOp.Ans

end ResilientMesh
