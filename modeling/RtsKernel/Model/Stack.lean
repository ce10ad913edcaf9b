import RtsKernel.Library.Bytes
import RtsKernel.Model.SwitchPlan
import RtsKernel.Model.Startup

/-!
# Stacks on Cortex-M4F

The checks of `task_validation.c` on a stack, the bytes that `stack_check.c` and the frame builder
of the Cortex-M4F port write into it, and the checks of a saved stack pointer that both make at a
switch. Addresses and sizes have 32 bits, as the port requires of its compiler.
-/

namespace RtsKernel

abbrev Address := BitVec 32

abbrev Memory := Bytes.Memory 32

/-! ## Configuration -/

/-- The options that concern stacks, with the checks the compiler makes of them. -/
structure StackConfig where
  enableStackGuards : Bool
  enableStackWatermark : Bool
  /-- `RTS_STACK_GUARD_SIZE_BYTES`. -/
  stackGuardSizeBytes : Nat
  /-- `RTS_IDLE_STACK_SIZE_BYTES`, the size of an array. -/
  idleStackSizeBytes : Address
  /-- `RTS_TIMER_SERVICE_STACK_SIZE_BYTES`, the size of an array. -/
  timerServiceStackSizeBytes : Address
  guard_min : enableStackGuards = true → 4 ≤ stackGuardSizeBytes
  idle_pos : 0 < idleStackSizeBytes
  service_pos : 1 ≤ timerServiceStackSizeBytes
  service_aligned : timerServiceStackSizeBytes % 16 = 0

/-- `(size_t)RTS_STACK_GUARD_SIZE_BYTES`. -/
def StackConfig.guardSize (cfg : StackConfig) : Address := BitVec.ofNat 32 cfg.stackGuardSizeBytes

/-- `RTS_TASK_STACK_ALIGNMENT`. -/
def taskStackAlignment : Address := 16

/-- `RTS_CM4F_ARCH_STACK_ALIGNMENT`. -/
def cm4fArchStackAlignment : Address := 8

/-- `RTS_CM4F_INITIAL_FRAME_SIZE_BYTES`. -/
def cm4fInitialFrameSizeBytes : Address := 64

/-- `RTS_CM4F_INITIAL_FRAME_WORD_COUNT`. -/
def cm4fInitialFrameWordCount : Nat := 16

/-- `RTS_CM4F_TASK_STACK_MINIMUM_SIZE_BYTES`. -/
def cm4fTaskStackMinimumSizeBytes : Address := cm4fInitialFrameSizeBytes

/-- `RTS_CM4F_TASK_STACK_GRANULARITY_BYTES`. -/
def cm4fTaskStackGranularityBytes : Address := taskStackAlignment

/-- `RTS_CM4F_INITIAL_XPSR`. -/
def cm4fInitialXpsr : BitVec 32 := 0x01000000

/-- `RTS_STACK_GUARD_PATTERN`. -/
def stackGuardPattern : BitVec 8 := 0xa5

/-- `RTS_STACK_FILL_PATTERN`. -/
def stackFillPattern : BitVec 8 := 0xcd

/-- `SIZE_MAX` and `UINTPTR_MAX`. -/
def addressMax : Address := 0xffffffff

/-! ## Application stacks -/

/-- `rts_task_stack_is_valid`, with the least size and the granularity of the port. -/
def TaskStackIsValid (cfg : StackConfig) (stackBuffer stackSizeBytes : Address) : Prop :=
  cm4fTaskStackMinimumSizeBytes ≠ 0 ∧ cm4fTaskStackGranularityBytes ≠ 0 ∧
  (cfg.enableStackGuards = true → cm4fTaskStackMinimumSizeBytes ≤ addressMax - cfg.guardSize) ∧
  stackBuffer ≠ 0 ∧ stackSizeBytes ≠ 0 ∧ stackBuffer % taskStackAlignment = 0 ∧
  (if cfg.enableStackGuards = true then cm4fTaskStackMinimumSizeBytes + cfg.guardSize
    else cm4fTaskStackMinimumSizeBytes) ≤ stackSizeBytes ∧
  stackSizeBytes % cm4fTaskStackGranularityBytes = 0 ∧ stackSizeBytes ≤ addressMax ∧
  stackBuffer ≤ addressMax - stackSizeBytes ∧
  (stackBuffer + stackSizeBytes) % taskStackAlignment = 0

instance (cfg : StackConfig) (stackBuffer stackSizeBytes : Address) :
    Decidable (TaskStackIsValid cfg stackBuffer stackSizeBytes) := by
  delta TaskStackIsValid
  infer_instance

/-! ## Diagnostics -/

/-- `rts_stack_diagnostics_prepare`. -/
def stackDiagnosticsPrepare (cfg : StackConfig) (stackLow stackHigh : Address) (mem : Memory) :
    Memory :=
  if stackLow = 0 ∨ stackHigh = 0 ∨ stackHigh ≤ stackLow then mem
  else
    let filled :=
      if cfg.enableStackWatermark = true then Bytes.fill mem stackLow stackHigh stackFillPattern
      else mem
    if cfg.enableStackGuards = true then
      Bytes.fill filled stackLow (stackLow + cfg.guardSize) stackGuardPattern
    else filled

/-- The fields of a task control block that say where its stack is. -/
structure TaskStack where
  stackLow : Address
  stackHigh : Address
  savedStackPointer : Address

/-- `rts_stack_guard_is_valid`. -/
def StackGuardIsValid (cfg : StackConfig) (mem : Memory) (task : TaskStack) : Prop :=
  cfg.enableStackGuards = true →
    task.stackLow ≠ 0 ∧ task.stackHigh ≠ 0 ∧ cfg.guardSize ≤ task.stackHigh - task.stackLow ∧
    ∀ index < cfg.guardSize.toNat, mem (task.stackLow + BitVec.ofNat 32 index) = stackGuardPattern

instance (cfg : StackConfig) (mem : Memory) (task : TaskStack) :
    Decidable (StackGuardIsValid cfg mem task) := by
  delta StackGuardIsValid
  infer_instance

/-- `rts_stack_saved_sp_is_valid`. -/
def StackSavedSpIsValid (cfg : StackConfig) (task : TaskStack) : Prop :=
  task.stackLow ≠ 0 ∧ task.stackHigh ≠ 0 ∧ task.savedStackPointer ≠ 0 ∧
  (if cfg.enableStackGuards = true then task.stackLow + cfg.guardSize else task.stackLow) ≤
    task.savedStackPointer ∧
  task.savedStackPointer < task.stackHigh ∧ task.savedStackPointer % 8 = 0

instance (cfg : StackConfig) (task : TaskStack) : Decidable (StackSavedSpIsValid cfg task) := by
  delta StackSavedSpIsValid
  infer_instance

/-- The check of both stacks at the start of `rts_scheduler_switch_complete`. -/
def stacksIntact (cfg : StackConfig) (mem : Memory) (fromTask toTask : TaskStack) : Bool :=
  decide (StackGuardIsValid cfg mem fromTask ∧ StackGuardIsValid cfg mem toTask ∧
    StackSavedSpIsValid cfg fromTask ∧ StackSavedSpIsValid cfg toTask)

/-! ## The port -/

/-- `rts_cm4f_saved_sp_is_valid`. -/
def Cm4fSavedSpIsValid (task : TaskStack) (savedStackPointer : Address) : Prop :=
  savedStackPointer ≠ 0 ∧ task.stackLow ≠ 0 ∧ task.stackHigh ≠ 0 ∧ task.stackLow < task.stackHigh ∧
  task.stackLow ≤ savedStackPointer ∧ savedStackPointer ≤ task.stackHigh ∧
  savedStackPointer % cm4fArchStackAlignment = 0 ∧
  cm4fInitialFrameSizeBytes ≤ task.stackHigh - savedStackPointer

/-- `rts_cm4f_add_is_valid`: the end of a region, unless it wraps. -/
def cm4fAddIsValid (base size : Address) : Option Address :=
  if addressMax - base < size then none else some (base + size)

/-- `rts_cm4f_frame_word_write`. -/
def cm4fFrameWordWrite (frame : Address) (mem : Memory) (wordIndex : Nat) (value : BitVec 32) :
    Memory :=
  Bytes.storeWord mem (frame + BitVec.ofNat 32 (wordIndex * 4)) value

/-- The writes of `rts_port_stack_initialize`: a cleared frame, then the argument, the return trap,
the entry and the program status. -/
def cm4fFrameWrite (frame : Address) (argument trap entry : BitVec 32) (mem : Memory) : Memory :=
  let cleared := (List.range cm4fInitialFrameWordCount).foldl
    (fun mem index => cm4fFrameWordWrite frame mem index 0) mem
  [(8, argument), (13, trap), (14, entry), (15, cm4fInitialXpsr)].foldl
    (fun mem word => cm4fFrameWordWrite frame mem word.1 word.2) cleared

/-- `rts_port_stack_initialize`; `trap` is the address of `rts_cm4f_task_return_trap`. Pointers have
the width of a frame word, so an argument always fits one. -/
def portStackInitialize (trap stackBuffer stackSizeBytes entry argument : Address) (mem : Memory) :
    StackAnswer × Memory :=
  let rejected (status : Status) : StackAnswer × Memory := (⟨status, 0⟩, mem)
  if entry = 0 then rejected .invalidTaskConfig
  else if stackBuffer = 0 then rejected .invalidStack
  else if stackBuffer % taskStackAlignment ≠ 0 ∨ stackSizeBytes < cm4fTaskStackMinimumSizeBytes ∨
      stackSizeBytes % cm4fTaskStackGranularityBytes ≠ 0 then rejected .invalidStack
  else
    match cm4fAddIsValid stackBuffer stackSizeBytes with
    | none => rejected .invalidStack
    | some stackEnd =>
      let alignedTop := stackEnd &&& ~~~ (taskStackAlignment - 1)
      if alignedTop < stackBuffer ∨ alignedTop - stackBuffer < cm4fInitialFrameSizeBytes then
        rejected .invalidStack
      else
        let frameAddress := alignedTop - cm4fInitialFrameSizeBytes
        if frameAddress < stackBuffer ∨ stackEnd < frameAddress ∨
            stackEnd - frameAddress < cm4fInitialFrameSizeBytes ∨
            frameAddress % taskStackAlignment ≠ 0 then rejected .invalidStack
        else if entry &&& 1 = 0 ∨ trap &&& 1 = 0 then rejected .portError
        else (⟨.ok, frameAddress.toNat⟩, cm4fFrameWrite frameAddress argument trap entry mem)

/-! ## Stacks of tasks -/

/-- The stack, the entry and the argument a caller hands to `rts_task_create`. -/
structure StackRequest where
  stackBuffer : Address
  stackSizeBytes : Address
  entry : Address
  argument : Address

/-- The end of the stack. -/
def StackRequest.stackEnd (request : StackRequest) : Address :=
  request.stackBuffer + request.stackSizeBytes

/-- The configuration a request stands for, given its scheduling parameters. -/
def StackRequest.taskConfig (cfg : StackConfig) (request : StackRequest) (priority : Nat)
    (period relativeDeadline executionBudget : Tick) : TaskConfig where
  entry := request.entry.toNat
  stackLow := request.stackBuffer.toNat
  stackHigh := request.stackEnd.toNat
  stackIsValid := decide (TaskStackIsValid cfg request.stackBuffer request.stackSizeBytes)
  priority := priority
  period := period
  relativeDeadline := relativeDeadline
  executionBudget := executionBudget

/-- The preparation of a stack, by `rts_task_create` and for each private task by `rts_init`: the
diagnostics fill it, then the port builds the initial frame. -/
def stackPrepare (cfg : StackConfig) (trap : Address) (request : StackRequest) (mem : Memory) :
    StackAnswer × Memory :=
  portStackInitialize trap request.stackBuffer request.stackSizeBytes request.entry request.argument
    (stackDiagnosticsPrepare cfg request.stackBuffer request.stackEnd mem)

/-- The stack of a task after its stack pointer has been installed. -/
def StackRequest.taskStack (request : StackRequest) (answer : StackAnswer) : TaskStack :=
  ⟨request.stackBuffer, request.stackEnd, BitVec.ofNat 32 answer.stackPointer⟩

/-- Where the linker has put the arrays of the two private stacks and the code of the port: the
arrays are aligned as declared, and neither they nor the null address overlap. -/
structure PrivateStacks (cfg : StackConfig) where
  timerServiceStack : Address
  idleStack : Address
  serviceEntry : Address
  idleEntry : Address
  service_nonnull : timerServiceStack ≠ 0
  idle_nonnull : idleStack ≠ 0
  service_aligned : timerServiceStack % taskStackAlignment = 0
  idle_aligned : idleStack % taskStackAlignment = 0
  service_fits : timerServiceStack.toNat + cfg.timerServiceStackSizeBytes.toNat ≤ 2 ^ 32
  idle_fits : idleStack.toNat + cfg.idleStackSizeBytes.toNat ≤ 2 ^ 32
  disjoint : timerServiceStack.toNat + cfg.timerServiceStackSizeBytes.toNat ≤ idleStack.toNat ∨
    idleStack.toNat + cfg.idleStackSizeBytes.toNat ≤ timerServiceStack.toNat

namespace PrivateStacks

variable {cfg : StackConfig}

def service (layout : PrivateStacks cfg) : StackRequest :=
  ⟨layout.timerServiceStack, cfg.timerServiceStackSizeBytes, layout.serviceEntry, 0⟩

def idle (layout : PrivateStacks cfg) : StackRequest :=
  ⟨layout.idleStack, cfg.idleStackSizeBytes, layout.idleEntry, 0⟩

/-- The first part of `rts_init`: the stack of the service. -/
def prepareService (layout : PrivateStacks cfg) (trap : Address) (mem : Memory) :
    StackAnswer × Memory :=
  stackPrepare cfg trap layout.service mem

/-- The second part of `rts_init`: the stack of the idle task. -/
def prepareIdle (layout : PrivateStacks cfg) (trap : Address) (mem : Memory) :
    StackAnswer × Memory :=
  stackPrepare cfg trap layout.idle (layout.prepareService trap mem).2

end PrivateStacks

/-- The stack pointer of an answer that reports success. -/
def StackAnswer.pointer? (answer : StackAnswer) : Option Nat :=
  if answer.status = .ok then some answer.stackPointer else none

/-- What `rts_init` learns from the port. -/
def PrivateStacks.initAnswers {cfg : StackConfig} (layout : PrivateStacks cfg) (trap : Address)
    (portOk : Bool) (mem : Memory) : InitAnswers where
  portOk := portOk
  serviceStackPointer := (layout.prepareService trap mem).1.pointer?
  idleStackPointer := (layout.prepareIdle trap mem).1.pointer?

end RtsKernel
