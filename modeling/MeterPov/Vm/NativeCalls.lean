import MeterPov.Script.Env

/-! `vm`, `xenv` and the interception of native calls in `runtime`.

What a contract's bytes do is a tree: a step on the state, a call or a creation, each followed by what comes after its
answer. The frames, their gas, the read-only mark and the native calls are the interpreter's. -/

set_option autoImplicit false

namespace MeterPov.Vm

open Lib Accounts Script Auction

/-- The errors that end one frame. -/
inductive VmError where
  | outOfGas
  | depth
  | insufficientBalance
  | executionReverted
  | writeProtection
  | contractAddressCollision
  | codeStoreOutOfGas
  | maxCodeSizeExceeded
  | other (message : String)
  deriving DecidableEq, Repr

structure Contract where
  callerAddress : Address
  self : Address
  codeAddr : Address
  code : Bytes
  input : Bytes
  gas : UInt64
  value : Nat
  deriving DecidableEq, Repr

inductive CallKind where
  | call
  | callCode
  | delegateCall
  | staticCall
  deriving DecidableEq, Repr

structure CallRequest where
  kind : CallKind
  addr : Address
  value : Nat
  input : Bytes
  gas : UInt64
  deriving DecidableEq, Repr

/-- The gas a call gets for the value it carries. -/
def CallRequest.stipend (request : CallRequest) : UInt64 :=
  match request.kind with
  | .call | .callCode => if request.value ≠ 0 then 2300 else 0
  | .delegateCall | .staticCall => 0

inductive Code (World : Type) where
  | halts (ret : Bytes)
  | reverts (ret : Bytes)
  -- an unknown opcode, a stack that is too small or too large, a bad jump
  | invalid (message : String)
  -- any operation that enters no frame; it sees the gas that is left
  | step (writes : Bool) (cost : UInt64) (act : UInt64 → World → Bytes × World) (next : Bytes → Code World)
  | call (cost : UInt64) (request : CallRequest) (next : Bool → Bytes → Code World)
  | create (cost : UInt64) (value : Nat) (salt : Option Nat) (init : Bytes) (next : Option Address → Bytes → Code World)

/-! ## Native methods -/

inductive NativePanic where
  | outOfGas
  | other (fault : Fault)
  deriving DecidableEq, Repr

/-- What the function behind a native method does, with the operations of its environment. -/
inductive NativeBody (World : Type) where
  -- nothing when the output cannot be encoded
  | ret (output : Option Bytes)
  | raise (message : String)
  | useGas (amount : UInt64) (next : NativeBody World)
  | parseArgs (next : NativeBody World)
  | act (change : World → Bytes × World) (next : Bytes → NativeBody World)

structure NativeMethod (World : Type) where
  isConst : Bool
  decodeInput : Bytes → Bool
  body : Contract → NativeBody World

namespace NativeBody

variable {World : Type}

def run (decodes : Bool) : NativeBody World → EStateM NativePanic (UInt64 × World) Bytes
  | .ret none => throw (.other (.raised "encode native output"))
  | .ret (some output) => return output
  | .raise message => throw (.other (.raised message))
  | .useGas amount next => do
    let (gas, world) ← get
    if gas < amount then throw .outOfGas
    set (gas - amount, world)
    run decodes next
  | .parseArgs next => do
    if !decodes then throw (.other (.raised "decode native input"))
    run decodes next
  | .act change next => do
    let (gas, world) ← get
    let (answer, after) := change world
    set (gas, after)
    run decodes (next answer)

end NativeBody

/-! ## The machine -/

/-- What a tracer sees: code that starts to run, and native methods that are called. -/
inductive Event (World : Type) where
  | frame (readOnly : Bool) (contract : Contract)
  | native (method : NativeMethod World) (contract : Contract) (world : World)

structure Machine (World : Type) where
  world : World
  readOnly : Bool := false
  contractCreationCount : Nat := 0
  lastNonNativeCallGas : UInt64 := 0
  trace : List (Event World) := []

structure Outcome where
  ret : Bytes
  err : Option VmError
  gas : UInt64
  deriving DecidableEq, Repr

/-- The opcode table, the account state and the tables of native and precompiled contracts. -/
structure Evm (World : Type) where
  behaviour : Contract → Code World
  precompiled : Address → Option (Bytes → UInt64 × Except String Bytes)
  getCode : World → Address → Bytes
  setCode : World → Address → Bytes → World
  exist : World → Address → Bool
  createAccount : World → Address → World
  getNonce : World → Address → UInt64
  setNonce : World → Address → UInt64 → World
  /-- The hash of the code is neither zero nor that of no code. -/
  hasCode : World → Address → Bool
  onCreateContract : World → Address → Address → World
  canTransfer : World → Address → Nat → Nat → Bool
  transfer : World → Address → Address → Nat → Nat → World
  newContractAddress : Address → Nat → Address
  createAddress2 : Address → Nat → Bytes → Address
  fromNativeContract : World → Address → Bool
  findNativeCall : Address → Bytes → Option (NativeMethod World)
  teslaFork6 : Bool

namespace Evm

def callCreateDepth : Nat := 1024
def maxCodeSize : Nat := 24576
def createDataGas : UInt64 := 200

variable {World : Type} (evm : Evm World)

def nativeCallReturnGas : UInt64 := if evm.teslaFork6 then 1264 else 1562

/-- `Environment.Call`: the panic of `UseGas` becomes an error, every other one goes on. -/
def callNative (method : NativeMethod World) (contract : Contract) : Action (Machine World) Outcome := do
  modify fun machine => { machine with trace := .native method contract machine.world :: machine.trace }
  let machine ← get
  match (method.body contract).run (method.decodeInput contract.input) (contract.gas, machine.world) with
  | .ok output (gas, world) => do
    set { machine with world := world }
    return ⟨output, none, gas⟩
  | .error .outOfGas (gas, world) => do
    set { machine with world := world }
    return ⟨[], some .outOfGas, gas⟩
  | .error (.other fault) (_, world) => do
    set { machine with world := world }
    throw fault

/-- Nothing when the frame is not a native call. -/
def interceptContractCall (depth : Nat) (contract : Contract) : Action (Machine World) (Option Outcome) := do
  let machine ← get
  let skip : Action (Machine World) (Option Outcome) := do
    set { machine with lastNonNativeCallGas := contract.gas }
    return none
  if depth < 2 then skip
  else if !evm.fromNativeContract machine.world contract.callerAddress then skip
  else match evm.findNativeCall contract.self contract.input with
    | none => skip
    | some method =>
      if machine.readOnly && !method.isConst then throw (.raised "invoke non-const method in readonly env")
      else if contract.value ≠ 0 then throw (.raised "value transfer not allowed")
      else
        let gas := contract.gas + evm.nativeCallReturnGas
        if machine.lastNonNativeCallGas < gas then return some ⟨[], some .executionReverted, gas⟩
        else return some (← callNative method { contract with gas := gas })

/-- Code that runs in another contract's place is not intercepted. -/
def contractHook (depth : Nat) (contract : Contract) : Action (Machine World) (Option Outcome) :=
  if contract.codeAddr = contract.self then evm.interceptContractCall depth contract else return none

/-- What a frame can ask of the machine. -/
structure Entering (World : Type) where
  call : Contract → CallRequest → Action (Machine World) Outcome
  create : Address → Bytes → UInt64 → Nat → Option Nat → Action (Machine World) (Outcome × Address)

/-- The loop of `Run`. The restrictions of a read-only frame come before the gas. -/
def exec (entering : Entering World) (contract : Contract) : Code World → UInt64 → Action (Machine World) Outcome
  | .halts ret, gas => return ⟨ret, none, gas⟩
  | .reverts ret, gas => return ⟨ret, some .executionReverted, gas⟩
  | .invalid message, gas => return ⟨[], some (.other message), gas⟩
  | .step writes cost act next, gas => do
    let machine ← get
    if machine.readOnly && writes then return ⟨[], some .writeProtection, gas⟩
    else if gas < cost then return ⟨[], some .outOfGas, gas⟩
    else do
      let (answer, world) := act (gas - cost) machine.world
      set { machine with world := world }
      exec entering contract (next answer) (gas - cost)
  | .call cost request next, gas => do
    let machine ← get
    if machine.readOnly && request.kind = .call && request.value ≠ 0 then return ⟨[], some .writeProtection, gas⟩
    else if gas < cost then return ⟨[], some .outOfGas, gas⟩
    else do
      let outcome ← entering.call contract { request with gas := request.gas + request.stipend }
      exec entering contract (next outcome.err.isNone outcome.ret) (gas - cost + outcome.gas)
  | .create cost value salt init next, gas => do
    let machine ← get
    if machine.readOnly then return ⟨[], some .writeProtection, gas⟩
    else if gas < cost then return ⟨[], some .outOfGas, gas⟩
    else do
      let left := gas - cost
      let given := left - left / 64
      let (outcome, addr) ← entering.create contract.self init given value salt
      let created := if outcome.err.isNone then some addr else none
      let ret := if outcome.err = some .executionReverted then outcome.ret else []
      exec entering contract (next created ret) (left - given + outcome.gas)

/-- `run` with `Interpreter.Run`. -/
def runFrame (depth : Nat) (entering : Entering World) (contract : Contract) : Action (Machine World) Outcome := do
  match evm.precompiled contract.codeAddr with
  | some precompile =>
    let (required, result) := precompile contract.input
    if contract.gas < required then return ⟨[], some .outOfGas, contract.gas⟩
    else match result with
      | .ok ret => return ⟨ret, none, contract.gas - required⟩
      | .error message => return ⟨[], some (.other message), contract.gas - required⟩
  | none => do
    match ← evm.contractHook depth contract with
    | some outcome => return outcome
    | none =>
      if contract.code = [] then return ⟨[], none, contract.gas⟩
      else do
        modify fun machine => { machine with trace := .frame machine.readOnly contract :: machine.trace }
        exec entering contract (evm.behaviour contract) contract.gas

/-- What the four calls do with a frame's error: the state is reverted, and the gas is gone unless the frame reverted. -/
def settle (snapshot : World) (outcome : Outcome) : Action (Machine World) Outcome := do
  match outcome.err with
  | none => return outcome
  | some err => do
    modify fun machine => { machine with world := snapshot }
    return { outcome with gas := if err = .executionReverted then outcome.gas else 0 }

/-- A frame of a static call is read-only; the mark is taken back when it ends, also by a panic. -/
def readOnlyFrame {α : Type} (action : Action (Machine World) α) : Action (Machine World) α :=
  Action.focus (fun machine => { machine with readOnly := true })
    (fun machine after => { after with readOnly := machine.readOnly }) action

/-- The four calls below the depth check; `run` is the frame one level deeper. -/
def call (run : Contract → Action (Machine World) Outcome) (token : Nat) (caller : Contract) (request : CallRequest) :
    Action (Machine World) Outcome := do
  let machine ← get
  let snapshot := machine.world
  let code := evm.getCode snapshot request.addr
  match request.kind with
  | .call =>
    if !evm.canTransfer snapshot caller.self request.value token then return ⟨[], some .insufficientBalance, request.gas⟩
    else if !evm.exist snapshot request.addr && (evm.precompiled request.addr).isNone && request.value = 0 then
      return ⟨[], none, request.gas⟩
    else do
      let opened := if evm.exist snapshot request.addr then snapshot else evm.createAccount snapshot request.addr
      let paid := evm.transfer opened caller.self request.addr request.value token
      set { machine with world := paid }
      settle snapshot
        (← run ⟨caller.self, request.addr, request.addr, evm.getCode paid request.addr, request.input, request.gas,
          request.value⟩)
  | .callCode =>
    if !evm.canTransfer snapshot caller.self request.value token then return ⟨[], some .insufficientBalance, request.gas⟩
    else settle snapshot (← run ⟨caller.self, caller.self, request.addr, code, request.input, request.gas, request.value⟩)
  | .delegateCall =>
    settle snapshot (← run ⟨caller.callerAddress, caller.self, request.addr, code, request.input, request.gas, caller.value⟩)
  | .staticCall =>
    readOnlyFrame do
      settle snapshot (← run ⟨caller.self, request.addr, request.addr, code, request.input, request.gas, 0⟩)

/-- `create` and `Create2` below the depth check. -/
def create (run : Contract → Action (Machine World) Outcome) (token : Nat) (caller : Address) (init : Bytes) (gas : UInt64)
    (value : Nat) (salt : Option Nat) : Action (Machine World) (Outcome × Address) := do
  let machine ← get
  let addr := match salt with
    | none => evm.newContractAddress caller machine.contractCreationCount
    | some salt => evm.createAddress2 caller salt init
  if !evm.canTransfer machine.world caller value token then return (⟨[], some .insufficientBalance, gas⟩, 0)
  else do
    let counted := { machine with
      world := evm.setNonce machine.world caller (evm.getNonce machine.world caller + 1)
      contractCreationCount := machine.contractCreationCount + 1 }
    set counted
    if evm.getNonce counted.world addr ≠ 0 || evm.hasCode counted.world addr then return (⟨[], some .contractAddressCollision, 0⟩, 0)
    else do
      let account := evm.setNonce (evm.createAccount counted.world addr) addr 1
      let owned := if init = [] then account else evm.onCreateContract account addr caller
      set { counted with world := evm.transfer owned caller addr value token }
      let outcome ← run ⟨caller, addr, addr, init, [], gas, value⟩
      let exceeded : Bool := maxCodeSize < outcome.ret.length
      let storeGas := UInt64.ofNat outcome.ret.length * createDataGas
      if outcome.err.isNone && !exceeded && storeGas ≤ outcome.gas then
        modify fun machine => { machine with world := evm.setCode machine.world addr outcome.ret }
        return ({ outcome with gas := outcome.gas - storeGas }, addr)
      else do
        let err := outcome.err.getD (if exceeded then .maxCodeSizeExceeded else .codeStoreOutOfGas)
        modify fun machine => { machine with world := counted.world }
        return (⟨outcome.ret, some err, if err = .executionReverted then outcome.gas else 0⟩, addr)

/-- A frame with so many levels left below it. -/
def run : Nat → Contract → Action (Machine World) Outcome
  | 0, contract =>
    evm.runFrame (callCreateDepth + 1)
      ⟨fun _ request => return ⟨[], some .depth, request.gas⟩, fun _ _ gas _ _ => return (⟨[], some .depth, gas⟩, 0)⟩ contract
  | left + 1, contract =>
    evm.runFrame (callCreateDepth - left) ⟨evm.call (run left) mtr, evm.create (run left) mtr⟩ contract

/-- The frame of a clause, at depth one. -/
def executeClause (origin : Address) (to? : Option Address) (token value : Nat) (data : Bytes) (gas : UInt64) :
    Action (Machine World) Outcome :=
  match to? with
  | none => Prod.fst <$> evm.create (evm.run callCreateDepth) token origin data gas value none
  | some addr => evm.call (evm.run callCreateDepth) token ⟨origin, origin, origin, [], [], gas, 0⟩ ⟨.call, addr, value, data, gas⟩

end Evm

/-! Which clauses a native call can panic.

The frame of a built-in contract is on the trace before it forwards anything, so a panic of the call it forwards can be
laid to that entry: the read-only mark is the frame's own, and the input is the one the frame was entered with. -/

open Lib.Action

variable {World : Type}

namespace NativeBody

/-- The run comes to no panic of the method's own: its output encodes, and nothing is raised before the gas runs out. -/
def Quiet : NativeBody World → UInt64 → World → Prop
  | .ret output, _, _ => output.isSome = true
  | .raise _, _, _ => False
  | .useGas amount next, gas, world => gas < amount ∨ next.Quiet (gas - amount) world
  | .parseArgs next, gas, world => next.Quiet gas world
  | .act change next, gas, world => (next (change world).1).Quiet gas (change world).2

def decideQuiet : (body : NativeBody World) → (gas : UInt64) → (world : World) → Decidable (body.Quiet gas world)
  | .ret output, _, _ => inferInstanceAs (Decidable (output.isSome = true))
  | .raise _, _, _ => inferInstanceAs (Decidable False)
  | .useGas amount next, gas, world =>
    have := decideQuiet next (gas - amount) world
    inferInstanceAs (Decidable (gas < amount ∨ next.Quiet (gas - amount) world))
  | .parseArgs next, gas, world => decideQuiet next gas world
  | .act change next, gas, world => decideQuiet (next (change world).1) gas (change world).2

theorem run_quiet {body : NativeBody World} {gas world} (quiet : body.Quiet gas world) (fault : Fault) (after : UInt64 × World) : body.run true (gas, world) ≠ .error (.other fault) after := by
  induction body generalizing gas world with
  | ret output =>
    obtain ⟨output, rfl⟩ := Option.isSome_iff_exists.mp quiet
    simp [run, pure, EStateM.pure]
  | raise message => exact quiet.elim
  | useGas amount next ih =>
    by_cases short : gas < amount
    · simp [run, short, bind, EStateM.bind, get, getThe, MonadStateOf.get, EStateM.get, throw, throwThe, MonadExceptOf.throw,
        EStateM.throw]
    · have rest := ih (quiet.resolve_left short)
      simpa [run, short, bind, EStateM.bind, get, getThe, MonadStateOf.get, EStateM.get, set, EStateM.set] using rest
  | parseArgs next ih => exact ih quiet
  | act change next ih => exact ih _ quiet

end NativeBody

/-! ## Built-in contracts -/

namespace Evm

variable (evm : Evm World)

/-- A call without value to the given native method; a static one only where the method is const. -/
def Forwarded (native? : Option (Address × Bytes)) (request : CallRequest) : Prop :=
  native? = some (request.addr, request.input) ∧ request.value = 0 ∧
    (request.kind = .call ∨
      request.kind = .staticCall ∧ ∀ method, evm.findNativeCall request.addr request.input = some method → method.isConst = true)

/-- Code that enters no frame but that of the given native method. -/
def Forwards (native? : Option (Address × Bytes)) : Code World → Prop
  | .halts _ => True
  | .reverts _ => True
  | .invalid _ => True
  | .step _ _ _ next => ∀ answer, Forwards native? (next answer)
  | .call _ request next => evm.Forwarded native? request ∧ ∀ success ret, Forwards native? (next success ret)
  | .create _ _ _ _ _ => False

end Evm

/-- The built-in contracts, and the native call each of them forwards for an input. -/
structure Builtins (evm : Evm World) where
  member : Address → Prop
  nativeOf : Address → Bytes → Option (Address × Bytes)
  callers : ∀ world addr, evm.fromNativeContract world addr = true → member addr
  natives : ∀ addr input method, evm.findNativeCall addr input = some method → member addr
  deployed : ∀ world addr, member addr → evm.hasCode world addr = true
  forwards : ∀ world contract, member contract.self → contract.codeAddr = contract.self →
    contract.code = evm.getCode world contract.self →
    evm.Forwards (nativeOf contract.self contract.input) (evm.behaviour contract)

namespace Builtins

variable {evm : Evm World} (builtins : Builtins evm)

/-- A built-in contract is entered with an input whose native method may be called there and gets its arguments; a
native method that is called raises no panic of its own. -/
def Lawful : Event World → Prop
  | .frame readOnly contract => builtins.member contract.self →
      ∀ native ∈ builtins.nativeOf contract.self contract.input, ∀ method ∈ evm.findNativeCall native.1 native.2,
      (readOnly = true → method.isConst = true) ∧ method.decodeInput native.2 = true
  | .native method contract world => (method.body contract).Quiet contract.gas world

instance [DecidablePred builtins.member] {event} : Decidable (builtins.Lawful event) :=
  match event with
  | .frame readOnly contract => inferInstanceAs (Decidable (builtins.member contract.self →
      ∀ native ∈ builtins.nativeOf contract.self contract.input, ∀ method ∈ evm.findNativeCall native.1 native.2,
      (readOnly = true → method.isConst = true) ∧ method.decodeInput native.2 = true))
  | .native method contract world => (method.body contract).decideQuiet contract.gas world

def Unlawful (machine : Machine World) : Prop := ∃ event ∈ machine.trace, ¬ builtins.Lawful event

def Held (readOnly : Bool) (known : List (Event World)) (machine : Machine World) : Prop :=
  machine.readOnly = readOnly ∧ ∀ event ∈ known, event ∈ machine.trace

/-- The action keeps the read-only mark and the events on the trace, and panics only after an unlawful one. -/
def Contained {α : Type} (readOnly : Bool) (known : List (Event World)) (action : Action (Machine World) α) : Prop :=
  Triple (Held readOnly known) action (fun _ => Held readOnly known) builtins.Unlawful

variable {builtins} {readOnly : Bool} {known : List (Event World)}

namespace Contained

variable {α β : Type}

theorem ret {value : α} : builtins.Contained readOnly known (pure value) := fun _ held => held

variable {action : Action (Machine World) α}

theorem seq {next : α → Action (Machine World) β} (first : builtins.Contained readOnly known action)
    (second : ∀ value, builtins.Contained readOnly known (next value)) :
    builtins.Contained readOnly known (action >>= next) :=
  Ends.seq first second

theorem readThen {next : Machine World → Action (Machine World) β}
    (second : ∀ machine, Held readOnly known machine → builtins.Contained readOnly known (next machine)) :
    builtins.Contained readOnly known (get >>= next) :=
  Ends.readThen second

theorem branch {condition} [Decidable condition] {other} (holds : condition → builtins.Contained readOnly known action)
    (fails : ¬ condition → builtins.Contained readOnly known other) :
    builtins.Contained readOnly known (if condition then action else other) :=
  Ends.branch holds fails

theorem put {after} (held : Held readOnly known after) : builtins.Contained readOnly known (set after) :=
  fun _ _ => held

theorem write {update} (kept : ∀ machine, Held readOnly known machine → Held readOnly known (update machine)) :
    builtins.Contained readOnly known (modify update) :=
  kept

end Contained

/-! ## Frames that are called -/

/-- A frame at the address of a built-in contract runs that contract's code. -/
def Placed (builtins : Builtins evm) (contract : Contract) : Prop :=
  builtins.member contract.self → contract.codeAddr = contract.self ∧ ∃ world, contract.code = evm.getCode world contract.self

/-- A native call carries no value, and an event that is known answers for it. -/
def Summoned (builtins : Builtins evm) (readOnly : Bool) (known : List (Event World)) (contract : Contract) : Prop :=
  ∀ world method, evm.fromNativeContract world contract.callerAddress = true → contract.codeAddr = contract.self →
    evm.findNativeCall contract.self contract.input = some method →
    contract.value = 0 ∧ ∃ event ∈ known, builtins.Lawful event →
      (readOnly = true → method.isConst = true) ∧ method.decodeInput contract.input = true

variable {contract : Contract}

theorem callNative_contained {method event} (vouching : event ∈ known)
    (vouched : builtins.Lawful event → method.decodeInput contract.input = true) :
    builtins.Contained readOnly known (Evm.callNative method contract) := by
  refine Ends.via (fun _ machine => Held readOnly known machine ∧ .native method contract machine.world ∈ machine.trace)
    (.write fun machine held => ⟨⟨held.1, fun event listed => .tail _ (held.2 event listed)⟩, .head _⟩) fun _ => ?_
  refine .readThen fun machine ⟨held, called⟩ => ?_
  split
  · exact .via (fun _ => Held readOnly known) (.put fun _ _ => held) fun _ => .ret fun _ held => held
  · exact .via (fun _ => Held readOnly known) (.put fun _ _ => held) fun _ => .ret fun _ held => held
  next fault gas world stopped =>
    -- either the input does not decode, or the method panics by itself
    refine .via (fun _ => builtins.Unlawful) (.put fun _ _ => ?_) fun _ => .fault fun _ unlawful => unlawful
    by_cases lawful : builtins.Lawful event
    · refine ⟨_, called, fun quiet => ?_⟩
      rw [vouched lawful] at stopped
      exact NativeBody.run_quiet quiet fault _ stopped
    · exact ⟨event, held.2 event vouching, lawful⟩

theorem interceptContractCall_contained {depth} (called : 2 ≤ depth → builtins.Summoned readOnly known contract)
    (own : contract.codeAddr = contract.self) :
    builtins.Contained readOnly known (evm.interceptContractCall depth contract) := by
  refine .readThen fun machine held => ?_
  have skipped : builtins.Contained readOnly known (do
      set { machine with lastNonNativeCallGas := contract.gas }
      pure none : Action (Machine World) (Option Outcome)) :=
    .seq (.put held) fun _ => .ret
  refine .branch (fun _ => skipped) fun deep => .branch (fun _ => skipped) fun native => ?_
  split
  · exact skipped
  next method found =>
    obtain ⟨free, event, listed, vouched⟩ :=
      called (Nat.le_of_not_lt deep) machine.world method (by simpa using native) own found
    refine Ends.branch (fun forbidden => .fault fun state kept => ?_) fun _ => Ends.branch (fun paid => absurd free paid) fun _ => ?_
    · refine ⟨event, kept.2 event listed, fun lawful => ?_⟩
      simp only [Bool.and_eq_true, Bool.not_eq_true'] at forbidden
      have const := (vouched lawful).1 (held.1.symm.trans forbidden.1)
      rw [const] at forbidden
      exact absurd forbidden.2 (by simp)
    · exact Contained.branch (fun _ => .ret) fun _ => .seq (callNative_contained listed fun lawful => (vouched lawful).2) fun _ => .ret

/-! ## Code -/

/-- The loop of one frame, given what is known of the frames it enters. -/
theorem exec_contained {entering}
    (calls : ∀ request, (builtins.member contract.self → evm.Forwarded (builtins.nativeOf contract.self contract.input) request) →
      builtins.Contained readOnly known (entering.call contract request))
    (creates : ¬ builtins.member contract.self → ∀ init gas value salt,
      builtins.Contained readOnly known (entering.create contract.self init gas value salt)) {code}
    (own : builtins.member contract.self → evm.Forwards (builtins.nativeOf contract.self contract.input) code) (gas : UInt64) : builtins.Contained readOnly known (Evm.exec entering contract code gas) := by
  induction code generalizing gas with
  | halts ret => exact .ret
  | reverts ret => exact .ret
  | invalid message => exact .ret
  | step writes cost act next ih =>
    refine .readThen fun machine held => .branch (fun _ => .ret) fun _ => .branch (fun _ => .ret) fun _ => ?_
    exact .seq (.put held) fun _ => ih _ (fun member => own member _) _
  | call cost request next ih =>
    refine .readThen fun machine held => .branch (fun _ => .ret) fun _ => .branch (fun _ => .ret) fun _ => ?_
    refine .seq (calls _ fun member => (own member).1) fun outcome => ?_
    exact ih _ _ (fun member => (own member).2 _ _) _
  | create cost value salt init next ih =>
    have apart : ¬ builtins.member contract.self := fun member => own member
    refine .readThen fun machine held => .branch (fun _ => .ret) fun _ => .branch (fun _ => .ret) fun _ => ?_
    exact .seq (creates apart _ _ _ _) fun outcome => ih _ _ (fun member => absurd member apart) _

theorem settle_contained {snapshot outcome} : builtins.Contained readOnly known (Evm.settle snapshot outcome) := by
  unfold Evm.settle
  split
  · exact .ret
  · exact .seq (.write fun _ held => held) fun _ => .ret

theorem readOnlyFrame_contained {α} {action : Action (Machine World) α} (inside : builtins.Contained true known action) :
    builtins.Contained readOnly known (Evm.readOnlyFrame action) := by
  refine Ends.focused fun machine held => ?_
  refine Triple.conseq inside ?_ (fun _ after kept => ⟨held.1, kept.2⟩) fun after unlawful => unlawful
  rintro _ rfl
  exact ⟨rfl, held.2⟩

/-! ## Entering frames -/

section

variable {run : Contract → Action (Machine World) Outcome} {nested : Prop}
  (below : ∀ readOnly contract, builtins.Placed contract → (nested → builtins.Summoned readOnly known contract) →
    builtins.Contained readOnly known (run contract))

include below

theorem call_contained {token caller request} (direct : builtins.member caller.self → request.kind = .call ∨ request.kind = .staticCall)
    (forwarded : nested → builtins.member caller.self →
      evm.Forwarded (builtins.nativeOf caller.self caller.input) request ∧ .frame readOnly caller ∈ known) :
    builtins.Contained readOnly known (evm.call run token caller request) := by
  refine .readThen fun machine held => ?_
  -- a frame at the called address may be a native call, if a built-in contract forwards it
  have answered : nested → builtins.member caller.self → ∀ method, evm.findNativeCall request.addr request.input = some method →
      request.value = 0 ∧ ∃ event ∈ known, builtins.Lawful event →
        (readOnly = true → method.isConst = true) ∧ method.decodeInput request.input = true := by
    intro inner member method found
    obtain ⟨⟨native, free, -⟩, listed⟩ := forwarded inner member
    exact ⟨free, _, listed, fun lawful => lawful member _ native method found⟩
  split
  · refine .branch (fun _ => .ret) fun _ => .branch (fun _ => .ret) fun _ => .seq (.put held) fun _ => ?_
    refine .seq (below _ _ (fun _ => ⟨rfl, _, rfl⟩) fun inner world method native _ found => ?_) fun _ => settle_contained
    exact answered inner (builtins.callers world _ native) method found
  next kind =>
    have apart : ¬ builtins.member caller.self := fun member => by simpa [kind] using direct member
    refine .branch (fun _ => .ret) fun _ => .seq (below _ _ (fun member => absurd member apart) ?_) fun _ => settle_contained
    exact fun _ _ method _ _ found => absurd (builtins.natives _ _ method found) apart
  next kind =>
    have apart : ¬ builtins.member caller.self := fun member => by simpa [kind] using direct member
    refine .seq (below _ _ (fun member => absurd member apart) ?_) fun _ => settle_contained
    exact fun _ _ method _ _ found => absurd (builtins.natives _ _ method found) apart
  next kind =>
    refine readOnlyFrame_contained (.seq (below _ _ (fun _ => ⟨rfl, _, rfl⟩) ?_) fun _ => settle_contained)
    intro inner world method native _ found
    have member := builtins.callers world _ native
    obtain ⟨-, event, listed, vouched⟩ := answered inner member method found
    obtain ⟨⟨-, -, allowed⟩, -⟩ := forwarded inner member
    have const : method.isConst = true := by
      rcases allowed with plain | ⟨-, const⟩
      · rw [kind] at plain
        cases plain
      · exact const method found
    exact ⟨rfl, event, listed, fun lawful => ⟨fun _ => const, (vouched lawful).2⟩⟩

theorem create_contained {token caller} (apart : nested → ¬ builtins.member caller) (init : Bytes) (gas : UInt64)
    (value : Nat) (salt : Option Nat) : builtins.Contained readOnly known (evm.create run token caller init gas value salt) := by
  refine .readThen fun machine held => .branch (fun _ => .ret) fun _ => .seq (.put held) fun _ => ?_
  refine .branch (fun _ => .ret) fun fresh => .seq (.put held) fun _ => ?_
  refine .seq (below _ _ (fun member => ?_) fun inner world method native _ found => ?_) fun outcome => .branch (fun _ => ?_) fun _ => ?_
  · simp only [Bool.or_eq_true, not_or] at fresh
    exact absurd (builtins.deployed _ _ member) fresh.2
  · exact absurd (builtins.callers world _ native) (apart inner)
  · exact .seq (.write fun _ held => held) fun _ => .ret
  · exact .seq (.write fun _ held => held) fun _ => .ret

end

theorem runFrame_contained {depth entering} (placed : builtins.Placed contract)
    (called : 2 ≤ depth → builtins.Summoned readOnly known contract)
    (calls : ∀ request, (builtins.member contract.self → evm.Forwarded (builtins.nativeOf contract.self contract.input) request) →
      builtins.Contained readOnly (.frame readOnly contract :: known) (entering.call contract request))
    (creates : ¬ builtins.member contract.self → ∀ init gas value salt,
      builtins.Contained readOnly (.frame readOnly contract :: known) (entering.create contract.self init gas value salt)) :
    builtins.Contained readOnly known (evm.runFrame depth entering contract) := by
  unfold Evm.runFrame
  split
  · refine .branch (fun _ => .ret) fun _ => ?_
    split
    · exact .ret
    · exact .ret
  · have hooked : builtins.Contained readOnly known (evm.contractHook depth contract) :=
      .branch (fun own => interceptContractCall_contained called own) fun _ => .ret
    refine .seq hooked fun handled => ?_
    split
    · exact .ret
    · refine .branch (fun _ => .ret) fun _ => ?_
      refine Ends.via (fun _ => Held readOnly (.frame readOnly contract :: known)) (.write fun machine held => ?_) fun _ => ?_
      · refine ⟨held.1, fun event listed => ?_⟩
        rcases List.mem_cons.mp listed with rfl | before
        · rw [held.1]
          exact .head _
        · exact .tail _ (held.2 event before)
      · refine Triple.conseq (exec_contained calls creates (fun member => ?_) contract.gas) (fun _ held => held)
          (fun _ _ held => ⟨held.1, fun event listed => held.2 event (.tail _ listed)⟩) fun _ unlawful => unlawful
        obtain ⟨own, world, code⟩ := placed member
        exact builtins.forwards world contract member own code

/-- Frames of every depth; the frame of a clause needs nobody to answer for it. -/
theorem run_contained (left : Nat) (bounded : left ≤ Evm.callCreateDepth) (placed : builtins.Placed contract)
    (called : left < Evm.callCreateDepth → builtins.Summoned readOnly known contract) :
    builtins.Contained readOnly known (evm.run left contract) := by
  induction left generalizing readOnly known contract with
  | zero => exact runFrame_contained placed (fun _ => called (by decide)) (fun _ _ => .ret) fun _ _ _ _ _ => .ret
  | succ left ih =>
    have below : ∀ flag inner, builtins.Placed inner → (True → builtins.Summoned flag (.frame readOnly contract :: known) inner) →
        builtins.Contained flag (.frame readOnly contract :: known) (evm.run left inner) :=
      fun _ _ placedInner summoned => ih (by omega) placedInner fun _ => summoned trivial
    refine runFrame_contained placed (fun deep => called ?_) (fun request forwarded => ?_) fun apart init gas value salt => ?_
    · omega
    · refine call_contained below (fun member => ?_) fun _ member => ⟨forwarded member, .head _⟩
      exact (forwarded member).2.2.imp id And.left
    · exact create_contained below (fun _ => apart) init gas value salt

end Builtins

section

def countingMethod : NativeMethod Nat where
  isConst := false
  decodeInput input := input.length = 2
  body _ := .useGas 100 (.parseArgs (.act (fun count => ([], count + 1)) fun _ => .ret (some [])))

-- the token at address 2 forwards its argument to the native method 8 at the same address
def tokenCode (input : Bytes) : Code Nat :=
  .call 700 ⟨.call, 2, 0, 8 :: input.tail, 50000⟩ fun success ret => if success then .halts ret else .reverts ret

def callsToken (kind : CallKind) (input : Bytes) : Code Nat := .call 700 ⟨kind, 2, 0, input, 100000⟩ fun _ ret => .halts ret

/-- The contracts 1, 3 and 4 call the token: by a static call, by a call, and by a call without an argument. -/
def tokenEvm : Evm Nat where
  behaviour contract :=
    match contract.code with
    | [1] => callsToken .staticCall [9, 5]
    | [2] => tokenCode contract.input
    | [3] => callsToken .call [9, 5]
    | [4] => callsToken .call [9]
    | _ => .invalid "invalid opcode"
  precompiled _ := none
  getCode _ addr := if addr = 0 then [] else [UInt8.ofNat addr]
  setCode world _ _ := world
  exist _ _ := true
  createAccount world _ := world
  getNonce _ _ := 0
  setNonce world _ _ := world
  hasCode _ addr := addr ≠ 0
  onCreateContract world _ _ := world
  canTransfer _ _ value _ := value = 0
  transfer world _ _ _ _ := world
  newContractAddress caller count := caller + count + 1000
  createAddress2 caller salt _ := caller + salt + 1000
  fromNativeContract _ addr := addr = 2
  findNativeCall addr input := if addr = 2 ∧ input.head? = some 8 then some countingMethod else none
  teslaFork6 := true

def tokenBuiltins : Builtins tokenEvm where
  member addr := addr = 2
  nativeOf _ input := some (2, 8 :: input.tail)
  callers _ _ native := by simpa [tokenEvm] using native
  natives addr input method found := by
    simp only [tokenEvm] at found
    split at found
    next known => exact known.1
    · cases found
  deployed _ addr member := by simp [tokenEvm, member]
  forwards world contract member _ code := by
    have stored : contract.code = [2] := by simp [code, member, tokenEvm]
    have token : tokenEvm.behaviour contract = tokenCode contract.input := by simp [tokenEvm, stored]
    rw [token]
    refine ⟨⟨rfl, rfl, .inl rfl⟩, fun success ret => ?_⟩
    cases success <;> trivial

instance : DecidablePred tokenBuiltins.member := fun addr => inferInstanceAs (Decidable (addr = 2))

end

end MeterPov.Vm
