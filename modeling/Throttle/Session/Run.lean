import Throttle.Session.Basic

/-!
# Running a session

`Session.run` carries out a request and says what comes of it. A request that names something the
session does not have leaves the session as it is.
-/

namespace Throttle.Session

/-- A reply without anything beside it. -/
def answer (session : Session) (answer : Answer) : Session × Reply :=
  (session, { result := .ok answer })

/-- A reply that also tells the window of a limiter. -/
def withWindow (session : Session) (result : Result) (ref : LimiterRef) : Session × Reply :=
  (session, { result, window := session.window? ref })

/-! ## Clocks and scopes -/

/-- Let a manual clock show an instant. -/
def showOn (session : Session) (index : Nat) (instant : Int) : Session :=
  { session with world := { session.world with
    clocks := session.world.clocks.modify index fun _ => instant } }

/-- A new manual clock. -/
def addClock (session : Session) (name : String) (start : Int) : Session :=
  { session with
    world := { session.world with clocks := session.world.clocks.push start }
    clocks := bindName session.clocks name session.world.clocks.size }

/-- A scope of some kind, derived from `parent`. -/
def deriveScope (world : World) (kind : ScopeKind) (parent : Scope) : ScopeTree × Scope :=
  match kind with
  | .root => world.scopes.root
  | .same => (world.scopes, parent)
  | .cancel => world.scopes.withCancel parent
  | .timeout span => world.scopes.withDeadline? parent (Time.after? world.now span)
  | .deadline instant => world.scopes.withDeadline parent instant

/-- The scope that another is to be derived from: one with a name, or a new one. It is not the
background scope that all requests share, since a copy of it could be cancelled. -/
def parentScope? (session : Session) : Option String → Option (Session × Scope)
  | none =>
    let (scopes, scope) := session.world.scopes.root
    some ({ session with world := { session.world with scopes } }, scope)
  | some name => do some (session, ← session.scopes.lookup name)

/-- Name a scope of some kind. -/
def addScope (session : Session) (name : String) (kind : ScopeKind) (parent : Scope) :
    Session × Reply :=
  let (scopes, scope) := deriveScope session.world kind parent
  let session := { session with
    world := { session.world with scopes }
    scopes := bindName session.scopes name scope }
  session.answer (session.describeScope scope)

/-! ## Limiters and permits -/

/-- Name a limiter that was made for it alone. -/
def addLimiter (session : Session) (name : String) (made : World × LimiterRef) :
    Option (Session × Reply) := do
  let (world, ref) := made
  let session := { session with world, limiters := bindName session.limiters name ref }
  some (session.answer (← session.describeLimiter ref))

/-- Name a permit. -/
def addPermit (session : Session) (name : String) (ref : LimiterRef) (permit : Permit) : Session :=
  { session with permits := bindName session.permits name (ref, permit) }

/-- Ask something about a permit, at the reading of its limiter's clock. -/
def askPermit (session : Session) (name : String) (question : Limiter → Permit → Int → Answer) :
    Option (Session × Reply) := do
  let (ref, permit) ← session.permits.lookup name
  let (world, limiter) ← session.world.look ref
  let session := { session with world }
  some (session.withWindow
    (.ok (question limiter permit (world.read limiter.clock))) ref)

/-- Use the permit with a name. -/
def usePermit (session : Session) (name : String) : Option (Session × Reply) := do
  let (ref, permit) ← session.permits.lookup name
  let (world, permit, refusal) ← session.world.use ref permit
  let session := { session with
    world
    permits := session.permits.map fun (entry : String × LimiterRef × Permit) =>
      if entry.1 = name then (name, ref, permit) else entry }
  let result : Result := match refusal with
    | none => .ok .nothing
    | some refusal => .failed (.ofRefusal refusal)
  some (session.withWindow result ref)

/-- Ask for single units again and again. -/
def burst (session : Session) (name : String) (times : Nat)
    (tell : List Bool → Answer) : Option (Session × Reply) := do
  let ref ← session.limiters.lookup name
  let limiter ← session.world.limiter? ref
  let (limiter, results) := limiter.burst (session.world.read limiter.clock) times
  let session := { session with world := session.world.putLimiter ref limiter }
  some (session.withWindow (.ok (tell results)) ref)

/-! ## Registries -/

/-- Name a registry. The length of its period is looked at before anything else. -/
def addRegistry (session : Session) (name : String) (scope : Scope) (policy : Policy)
    (period : Nat) (canSweep : Bool) : Option (Session × Reply) :=
  if period = 0 then
    some (session, { result := .failed (.interval .noCleanupPeriod) })
  else if !canSweep then
    some (session, { result := .failed (.misuse .nobodySweeps) })
  else do
    let world := match session.registries.lookup name with
      | none => session.world
      | some replaced => session.world.abandon replaced
    let (world, index) := world.found policy scope period
    let session := { session with world, registries := bindName session.registries name index }
    some (session.answer (← session.describeRegistry index))

/-- Ask a registry for the limiter of a key. -/
def askRegistry (session : Session) (registry key : String) (scope : Scope)
    (tell : Session → LimiterRef → Option (Session × Answer)) : Option (Session × Reply) := do
  let index ← session.registries.lookup registry
  match ← session.world.limiterFor index key scope with
  | .error reason =>
    some (session, {
      result := .failed (.ended reason)
      size := (session.registry? registry).map (·.size) })
  | .ok (world, ref) =>
    let session := { session with world }
    let (told, value) ← tell session ref
    some (told, { result := .ok value, size := (session.registry? registry).map (·.size) })

/-- The limiter of a key with the names that it had before, and one more name if it is to get one. -/
def tellEntered (name : Option String) (session : Session) (ref : LimiterRef) :
    Option (Session × Answer) := do
  let limiter ← session.world.limiter? ref
  let sameAs := (session.limiters.filter fun entry => entry.2 = ref).map (·.1)
  let limiters := match name with
    | none => session.limiters
    | some name => bindName session.limiters name ref
  some ({ session with limiters }, .entered limiter.limit sameAs limiter.window)

/-- Sweep a registry, and tell how many limiters it forgot. -/
def sweepRegistry (session : Session) (name : String) : Option (Session × Reply) := do
  let index ← session.registries.lookup name
  let registry ← session.registry? name
  let forgotten := registry.forgotten (session.world.read registry.policy.clock)
  let session := { session with world := session.world.sweep index }
  some (session, {
    result := .ok (.count forgotten)
    size := (session.registry? name).map (·.size) })

/-! ## Waiting -/

/-- A request that is begun: how far it has come, and what is to be told about it in the end. -/
structure Begun where
  world : World
  progress : Progress
  limiter : Option LimiterRef := none
  registry : Option String := none

/-- Begin a request that may have to wait. -/
def begin (session : Session) : WaitingRequest → Option (Except Reply Begun)
  | .pause span =>
    let (world, progress) := session.world.pauseFor span
    some (.ok { world, progress })
  | .wait scope deadline => do
    let (world, progress) := session.world.wait (← session.scope? scope) deadline
    some (.ok { world, progress })
  | .waitFor scope span => do
    let (world, progress) := session.world.waitFor (← session.scope? scope) span
    some (.ok { world, progress })
  | .waitEnd scope => do
    let (world, progress) := session.world.waitEnd (← session.scope? scope)
    some (.ok { world, progress })
  | .useOrWait name scope units => do
    let ref ← session.limiters.lookup name
    let limiter ← session.world.limiter? ref
    let (world, taken) := session.world.takeOrWait (← session.scope? scope) ref units
    match taken with
    | .error fault =>
      some (.error {
        result := .failed (.ofRequest fault), window := limiter.window, elapsed := some 0 })
    | .ok progress => some (.ok { world, progress, limiter := some ref })
  | .admission registry key scope patient => do
    let index ← session.registries.lookup registry
    let (world, progress) := session.world.letIn index key (← session.scope? scope) patient
    some (.ok { world, progress, registry := some registry })

/-- The result of an activity. -/
def resultOfOutcome : Option Outcome → Result
  | none => .pending
  | some .finished => .ok .nothing
  | some (.ended reason) => .failed (.ended reason)
  | some (.decided decision) => .ok (.decision decision)
  | some (.refused refusal) => .failed (.ofRefusal refusal)
  | some .lost => .unknown

/-- Carry out a request that may have to wait, to its end or to the end of its patience. -/
def runWaiting (session : Session) (request : WaitingRequest) (surroundings : Surroundings) :
    Option (Session × Reply) := do
  let started := session.world.now
  match ← session.begin request with
  | .error reply => some (session, reply)
  | .ok begun =>
    let actions ← session.surround surroundings.effects
    let (world, outcome) := match begun.progress with
      | .reached outcome => (begun.world, some outcome)
      | .waiting activity =>
        begun.world.carryOn activity actions (Time.tick (started + surroundings.patience))
    let session := { session with world }
    some (session, {
      result := resultOfOutcome outcome
      window := begun.limiter.bind session.window?
      size := begun.registry.bind fun name => (session.registry? name).map (·.size)
      elapsed := some (Time.elapsed started world.now) })

/-! ## All requests -/

/-- What the inside of something looks like. -/
def inspect (session : Session) : Subject → Option String
  | .limiter name => do
    let ref ← session.limiters.lookup name
    (session.world.limiter? ref).map Inspection.limiter
  | .permit name => (session.permits.lookup name).map fun entry => Inspection.permit entry.2
  | .registry name => (session.registry? name).map Inspection.registry
  | .scope name => (session.scopes.lookup name).map (Inspection.scope session.world.scopes)

/-- Carry out a request, if the session has everything that it names. -/
def run? (session : Session) : Request → Option (Session × Reply)
  | .clock name start =>
    let start := start.getD session.world.now
    some ((session.addClock name start).answer (.instant start))
  | .setClock name instant => do
    let index ← session.clocks.lookup name
    some ((session.showOn index instant).answer (.instant instant))
  | .advanceClock name span => do
    let index ← session.clocks.lookup name
    let shown ← session.world.clocks[index]?
    match Time.after? shown span with
    | none => some (session, { result := .clockOverflow, shown := some shown })
    | some later =>
      some (session.showOn index later, { result := .ok .nothing, shown := some later })
  | .now => some (session.answer (.instant session.world.now))
  | .block span =>
    let world := { session.world with now := session.world.now + span }
    some ({ session with world }.answer (.instant world.now))
  | .scope name kind parent => do
    let (session, parent) ← session.parentScope? parent
    some (session.addScope name kind parent)
  | .scopeInfo name => do
    some (session.answer (session.describeScope (← session.scopes.lookup name)))
  | .cancelScope name => do
    let scope ← session.scopes.lookup name
    let world := { session.world with scopes := session.world.scopes.cancel scope }
    some ({ session with world }.answer .nothing)
  | .policy name maxEvents interval segments clock => do
    let clock ← session.clock? clock
    match Policy.ofParameters maxEvents interval segments session.world.now with
    | .error fault => some (session, { result := .failed (.ofPlan fault) })
    | .ok stated =>
      let policy := stated.withClock clock
      let description := Inspection.plan policy.plan policy.clock (session.world.read policy.clock)
      some ({ session with
          policies := bindName session.policies name (policy, none) }.answer
        (.policy policy.plan (Inspection.policyName policy) description))
  | .tallyPolicy name base => do
    let (policy, _) ← session.policies.lookup base
    let tally := session.world.tallies.size
    let policy := { policy with tallies := tally :: policy.tallies }
    let world := { session.world with tallies := session.world.tallies.push 0 }
    some ({ session with
        world, policies := bindName session.policies name (policy, some tally) }.answer
      (.text (Inspection.policyName policy)))
  | .tallied name => do
    let (_, tally) ← session.policies.lookup name
    some (session.answer (.count (← session.world.tallies[← tally]?)))
  | .limiter name maxEvents interval segments clock => do
    let clock ← session.clock? clock
    match Limiter.ofParameters maxEvents interval segments clock (session.world.read clock) with
    | .error fault => some (session, { result := .failed (.ofPlan fault) })
    | .ok limiter => session.addLimiter name (session.world.keepLoose limiter)
  | .makeLimiter name policy => do
    let (policy, _) ← session.policies.lookup policy
    session.addLimiter name (session.world.makeLoose policy)
  | .interval name => do
    let limiter ← session.world.limiter? (← session.limiters.lookup name)
    some (session.answer (.span limiter.window.plan.interval))
  | .limit name => do
    let limiter ← session.world.limiter? (← session.limiters.lookup name)
    some (session.answer (.count limiter.limit))
  | .inspect subject => do some (session.answer (.text (← session.inspect subject)))
  | .available name scope => do
    let ref ← session.limiters.lookup name
    match session.world.ended (← session.scope? scope) with
    | some reason => some (session.withWindow (.failed (.ended reason)) ref)
    | none =>
      let (world, limiter) ← session.world.look ref
      some ({ session with world }.withWindow (.ok (.count limiter.available)) ref)
  | .single limiter name => do
    let ref ← session.limiters.lookup limiter
    some ((session.addPermit name ref Limiter.single).withWindow (.ok .nothing) ref)
  | .request limiter name units => do
    let ref ← session.limiters.lookup limiter
    match (← session.world.limiter? ref).request units with
    | .error fault => some (session.withWindow (.failed (.ofRequest fault)) ref)
    | .ok permit => some ((session.addPermit name ref permit).withWindow (.ok .nothing) ref)
  | .allows permit =>
    session.askPermit permit fun limiter permit _ => .flag (limiter.allows permit)
  | .resetsAt permit =>
    session.askPermit permit fun limiter permit now => .instant (limiter.resetsAt permit now)
  | .retryAfter permit =>
    session.askPermit permit fun limiter permit now => .span (limiter.retryAfter permit now)
  | .use permit => session.usePermit permit
  | .burst limiter times => session.burst limiter times .attempts
  | .parallelBurst limiter sides times =>
    session.burst limiter (sides * times) fun results => .count (results.count true)
  | .registry name scope policy period canSweep => do
    let (policy, _) ← session.policies.lookup policy
    session.addRegistry name (← session.scope? scope) policy period canSweep
  | .registryInfo name => do
    let index ← session.registries.lookup name
    some (session.answer (← session.describeRegistry index))
  | .dropRegistry name => do
    let index ← session.registries.lookup name
    some ({ session with
        world := session.world.abandon index
        registries := session.registries.filter fun entry => entry.1 != name }.answer .nothing)
  | .limiterFor registry key scope name => do
    session.askRegistry registry key (← session.scope? scope) (tellEntered name)
  | .parallelLimiterFor registry key scope => do
    session.askRegistry registry key (← session.scope? scope)
      fun session _ => some (session, .flag true)
  | .sweep name => session.sweepRegistry name
  | .waiting request surroundings => session.runWaiting request surroundings

/-- Carry out a request. -/
def run (session : Session) (request : Request) : Session × Reply :=
  (session.run? request).getD (session, { result := .unknown })

end Throttle.Session
