import RtsKernel.Model.Run
import RtsKernel.Model.Stack
import RtsKernel.Operation.Plan

/-!
# Initial contexts

Every stack that `rts_task_create` accepts holds the initial frame above its guard bytes, and so
passes all checks of the first switch. The private stacks of `rts_init` reach the frame builder
without the check of the guard bytes; they hold both if and only if they have room for both.

## Main results

* `Usable.of_prepare`: a stack with room for the guard bytes and the frame is usable once prepared.
* `accepted_stacks_usable`: the stacks that the kernel accepts are usable.
* `idle_frame_over_guard`: a private stack without room for its guard bytes.
-/

namespace RtsKernel

open Halting Prog Bytes

variable {scfg : StackConfig} {mem mem' : Memory} {trap : Address} {request : StackRequest}

/-! ## Usable stacks -/

/-- The guard bytes at the low end of every stack. -/
def StackConfig.guardBytes (cfg : StackConfig) : Nat :=
  if cfg.enableStackGuards = true then cfg.guardSize.toNat else 0

/-- The initial context of a stack: nothing wraps, the frame lies between the guard bytes and the
end, and the run-time checks accept stack pointer and guard bytes. -/
structure Usable (cfg : StackConfig) (mem : Memory) (request : StackRequest) (task : TaskStack) :
    Prop where
  low : task.stackLow = request.stackBuffer
  high : task.stackHigh.toNat = request.stackBuffer.toNat + request.stackSizeBytes.toNat
  guard_above : (if cfg.enableStackGuards = true then task.stackLow + cfg.guardSize
    else task.stackLow).toNat = task.stackLow.toNat + cfg.guardBytes
  frame_above : task.stackLow.toNat + cfg.guardBytes ≤ task.savedStackPointer.toNat
  frame_inside :
    task.savedStackPointer.toNat + cm4fInitialFrameSizeBytes.toNat ≤ task.stackHigh.toNat
  aligned : task.savedStackPointer.toNat % 16 = 0
  savedSp : StackSavedSpIsValid cfg task
  portSavedSp : Cm4fSavedSpIsValid task task.savedStackPointer
  guard : StackGuardIsValid cfg mem task

/-- Between two usable stacks the completion of a switch finds nothing wrong. -/
theorem Usable.intact {request' : StackRequest} {task task' : TaskStack}
    (h : Usable scfg mem request task) (h' : Usable scfg mem request' task') :
    stacksIntact scfg mem task task' = true :=
  decide_eq_true ⟨h.guard, h'.guard, h.savedSp, h'.savedSp⟩

/-! ## The frame builder -/

theorem aligned_iff {a : Address} : a % taskStackAlignment = 0 ↔ a.toNat % 16 = 0 := by
  rw [← BitVec.toNat_inj, BitVec.toNat_umod]
  rfl

theorem and_not_align {a : Address} (h : a.toNat % 16 = 0) :
    a &&& ~~~ (taskStackAlignment - 1) = a := by
  apply BitVec.eq_of_getLsbD_eq
  intro i hi
  rw [BitVec.getLsbD_and, BitVec.getLsbD_not]
  rcases Nat.lt_or_ge i 4 with hlt | hge
  · have hmod := Nat.testBit_mod_two_pow a.toNat 4 i
    rw [show (2 : Nat) ^ 4 = 16 from rfl, h, Nat.zero_testBit] at hmod
    have hbit : a.getLsbD i = false := by
      rw [← BitVec.testBit_toNat]
      simpa [hlt] using hmod.symm
    rw [hbit, Bool.false_and]
  · have hmask : (taskStackAlignment - 1).getLsbD i = false := by
      rw [← BitVec.testBit_toNat]
      exact Nat.testBit_lt_two_pow
        (Nat.lt_of_lt_of_le (by decide) (Nat.pow_le_pow_right (by decide) hge))
    rw [hmask, decide_eq_true hi, Bool.not_false, Bool.and_self, Bool.and_true]

/-- A frame at the top of a stack changes nothing below it. -/
theorem changesOnly_cm4fFrameWrite {frame : Address} (h : frame.toNat + 64 ≤ 2 ^ 32)
    (argument trap entry : Address) (mem : Memory) :
    ChangesOnly frame.toNat (frame.toNat + 64) mem
      (cm4fFrameWrite frame argument trap entry mem) := by
  have hword {index : Nat} (hi : index < 16) (value : BitVec 32) (mem : Memory) :
      ChangesOnly frame.toNat (frame.toNat + 64) mem
          (cm4fFrameWordWrite frame mem index value) := by
    have hat : (frame + BitVec.ofNat 32 (index * 4)).toNat = frame.toNat + index * 4 := by
      rw [BitVec.toNat_add, BitVec.toNat_ofNat, Nat.mod_eq_of_lt (a := index * 4) (by omega)]
      exact Nat.mod_eq_of_lt (by omega)
    exact (changesOnly_storeWord mem _ value (by omega)).mono (by omega) (by omega)
  refine (changesOnly_foldl (fun index hi mem => hword (List.mem_range.mp hi) 0 mem) mem).trans
    (changesOnly_foldl (fun word hw mem => hword ?_ word.2 mem) _)
  simp only [List.mem_cons, List.not_mem_nil, or_false] at hw
  obtain rfl | rfl | rfl | rfl := hw <;> simp

/-- A stack that the frame builder accepts ends below the end of memory, and its frame ends where it
does. -/
structure Framed (trap : Address) (request : StackRequest) (mem : Memory) (answer : StackAnswer)
    (mem' : Memory) : Prop where
  nonnull : request.stackBuffer ≠ 0
  buffer_aligned : request.stackBuffer.toNat % 16 = 0
  size_aligned : request.stackSizeBytes.toNat % 16 = 0
  size : 64 ≤ request.stackSizeBytes.toNat
  stackEnd : request.stackEnd.toNat = request.stackBuffer.toNat + request.stackSizeBytes.toNat
  pointer : answer.stackPointer + 64 = request.stackEnd.toNat
  frame : mem' = cm4fFrameWrite (BitVec.ofNat 32 answer.stackPointer) request.argument trap
    request.entry mem

theorem framed_of_ok {answer : StackAnswer} (h : portStackInitialize trap request.stackBuffer
      request.stackSizeBytes request.entry request.argument mem = (answer, mem'))
    (hok : answer.status = .ok) : Framed trap request mem answer mem' := by
  obtain ⟨buffer, size, entry, argument⟩ := request
  have hrejected {status : Status} (hs : status ≠ .ok) :
      ((⟨status, 0⟩, mem) : StackAnswer × Memory) ≠ (answer, mem') := by
    rintro ⟨⟩
    exact hs hok
  unfold portStackInitialize at h
  split at h
  · exact (hrejected (by simp) h).elim
  split at h
  · exact (hrejected (by simp) h).elim
  rename_i hnull
  split at h
  · exact (hrejected (by simp) h).elim
  rename_i hchecks
  simp only [not_or, not_not, ne_eq, aligned_iff, cm4fTaskStackGranularityBytes,
    cm4fTaskStackMinimumSizeBytes, cm4fInitialFrameSizeBytes] at hchecks
  obtain ⟨hbuffer, hsize, hgranularity⟩ := hchecks
  split at h
  · exact (hrejected (by simp) h).elim
  rename_i stackEnd hend
  obtain ⟨hfits, rfl⟩ : ¬ addressMax - buffer < size ∧ buffer + size = stackEnd := by
    simpa [cm4fAddIsValid] using hend
  have hsum : (buffer + size).toNat = buffer.toNat + size.toNat := by
    simp only [addressMax] at hfits
    bv_omega
  have hpointer :
      (buffer + size - cm4fInitialFrameSizeBytes).toNat + 64 = (buffer + size).toNat := by
    simp only [cm4fInitialFrameSizeBytes]
    bv_omega
  rw [and_not_align (by omega)] at h
  dsimp only at h
  split at h
  · exact (hrejected (by simp) h).elim
  split at h
  · exact (hrejected (by simp) h).elim
  split at h
  · exact (hrejected (by simp) h).elim
  obtain ⟨rfl, rfl⟩ := Prod.mk.inj h
  refine ⟨hnull, hbuffer, hgranularity, by bv_omega, hsum, hpointer, ?_⟩
  rw [BitVec.ofNat_toNat, BitVec.setWidth_eq]

/-! ## Prepared stacks -/

/-- The stack has room for the guard bytes and the initial frame. -/
def StackRequest.HasRoom (cfg : StackConfig) (request : StackRequest) : Prop :=
  cm4fInitialFrameSizeBytes.toNat + cfg.guardBytes ≤ request.stackSizeBytes.toNat

theorem guardBytes_of_enabled (h : scfg.enableStackGuards = true) :
    scfg.guardBytes = scfg.guardSize.toNat := if_pos h

/-- The diagnostics write inside the stack, and leave the pattern in the guard bytes. -/
theorem stackDiagnosticsPrepare_spec (mem : Memory) {low high : Address} (hlow : low ≠ 0)
    (hroom : low.toNat + scfg.guardBytes < high.toNat) :
    ChangesOnly low.toNat high.toNat mem (stackDiagnosticsPrepare scfg low high mem) ∧
      (scfg.enableStackGuards = true → ∀ a : Address, low.toNat ≤ a.toNat →
        a.toNat < low.toNat + scfg.guardBytes →
        stackDiagnosticsPrepare scfg low high mem a = stackGuardPattern) := by
  have hnot : ¬ (low = 0 ∨ high = 0 ∨ high ≤ low) := by bv_omega
  unfold stackDiagnosticsPrepare
  rw [if_neg hnot]
  dsimp only
  have hfilled : ChangesOnly low.toNat high.toNat mem (if scfg.enableStackWatermark = true then
      Bytes.fill mem low high stackFillPattern else mem) := by
    split
    · exact changesOnly_fill _ _ _ _
    · exact .refl mem
  generalize (if scfg.enableStackWatermark = true then _ else mem) = filled at hfilled ⊢
  split <;> rename_i hen
  · rw [guardBytes_of_enabled hen] at *
    have hend : (low + scfg.guardSize).toNat = low.toNat + scfg.guardSize.toNat := by bv_omega
    refine ⟨hfilled.trans ((changesOnly_fill _ _ _ _).mono le_rfl (by omega)),
      fun _ a hle hlt => ?_⟩
    rw [fill_apply, if_pos]
    simp only [BitVec.le_def, BitVec.lt_def, hend]
    exact ⟨hle, hlt⟩
  · exact ⟨hfilled, fun h => absurd h hen⟩

/-- A stack with room for the guard bytes and the frame is usable once it is prepared, and nothing
outside it has changed. -/
theorem Usable.of_prepare {answer : StackAnswer}
    (h : stackPrepare scfg trap request mem = (answer, mem')) (hok : answer.status = .ok)
    (hroom : request.HasRoom scfg) : Usable scfg mem' request (request.taskStack answer) ∧
      ChangesOnly request.stackBuffer.toNat request.stackEnd.toNat mem mem' := by
  have hf := framed_of_ok h hok
  have hend := hf.stackEnd
  have hpointer := hf.pointer
  have hlt := request.stackEnd.isLt
  have hbuffer := hf.buffer_aligned
  have hsize := hf.size_aligned
  have hnonnull : request.stackBuffer.toNat ≠ 0 := fun h => hf.nonnull (BitVec.eq_of_toNat_eq h)
  have hroom' : 64 + scfg.guardBytes ≤ request.stackSizeBytes.toNat := hroom
  have hsaved : (BitVec.ofNat 32 answer.stackPointer).toNat = answer.stackPointer := by
    rw [BitVec.toNat_ofNat]
    exact Nat.mod_eq_of_lt (by omega)
  have hbelow : request.stackBuffer.toNat + scfg.guardBytes < request.stackEnd.toNat := by omega
  obtain ⟨hchanges, hguard⟩ := stackDiagnosticsPrepare_spec mem hf.nonnull hbelow
  have hframe : ChangesOnly answer.stackPointer (answer.stackPointer + 64)
      (stackDiagnosticsPrepare scfg request.stackBuffer request.stackEnd mem) mem' := by
    have hfits : (BitVec.ofNat 32 answer.stackPointer).toNat + 64 ≤ 2 ^ 32 := by omega
    have hwrite := changesOnly_cm4fFrameWrite hfits request.argument trap request.entry
      (stackDiagnosticsPrepare scfg request.stackBuffer request.stackEnd mem)
    rwa [hsaved, ← hf.frame] at hwrite
  have hlow : (if scfg.enableStackGuards = true then request.stackBuffer + scfg.guardSize
      else request.stackBuffer).toNat = request.stackBuffer.toNat + scfg.guardBytes := by
    unfold StackConfig.guardBytes at *
    split <;> rename_i hen
    · rw [if_pos hen] at hroom'
      bv_omega
    · rfl
  have hnull : request.stackEnd ≠ 0 := fun h => by simp [h] at hend; omega
  refine ⟨?_, hchanges.trans (hframe.mono (by omega) (by omega))⟩
  unfold StackRequest.taskStack
  set saved := BitVec.ofNat 32 answer.stackPointer
  have hsaved0 : saved ≠ 0 := fun h => by simp [h] at hsaved; omega
  have haligned : saved.toNat % 16 = 0 := by omega
  have harch : saved % 8 = 0 := by
    apply BitVec.eq_of_toNat_eq
    rw [BitVec.toNat_umod]
    exact Nat.mod_mod_of_dvd saved.toNat (by decide : 8 ∣ 16) ▸ congrArg (· % 8) haligned
  refine ⟨rfl, hend, hlow, ?_, ?_, haligned, ?_, ?_, fun hen => ?_⟩
  · dsimp only
    omega
  · dsimp only
    rw [hsaved]
    exact hpointer.le
  · refine ⟨hf.nonnull, hnull, hsaved0, ?_, ?_, harch⟩
    · rw [BitVec.le_def]
      dsimp only
      omega
    · rw [BitVec.lt_def]
      dsimp only
      omega
  · simp only [Cm4fSavedSpIsValid, cm4fInitialFrameSizeBytes]
    refine ⟨hsaved0, hf.nonnull, hnull, ?_, ?_, ?_, harch, ?_⟩ <;> bv_omega
  · refine ⟨hf.nonnull, hnull, ?_, fun index hi => ?_⟩
    · rw [guardBytes_of_enabled hen] at hroom'
      bv_omega
    · rw [guardBytes_of_enabled hen] at hroom' hguard
      have hat : (request.stackBuffer + BitVec.ofNat 32 index).toNat =
          request.stackBuffer.toNat + index := by
        rw [BitVec.toNat_add, BitVec.toNat_ofNat, Nat.mod_eq_of_lt (a := index) (by omega)]
        exact Nat.mod_eq_of_lt (by omega)
      dsimp only
      rw [hframe _ (by omega)]
      exact hguard hen _ (by omega) (by omega)

theorem Usable.of_stackPrepare (hok : (stackPrepare scfg trap request mem).1.status = .ok)
    (hroom : request.HasRoom scfg) :
    Usable scfg (stackPrepare scfg trap request mem).2 request
        (request.taskStack (stackPrepare scfg trap request mem).1) ∧
      ChangesOnly request.stackBuffer.toNat request.stackEnd.toNat mem
        (stackPrepare scfg trap request mem).2 := by
  generalize hp : stackPrepare scfg trap request mem = p at hok ⊢
  exact Usable.of_prepare hp hok hroom

/-- Writes outside a usable stack leave it usable. -/
theorem Usable.mono {task : TaskStack} {low high : Nat} (h : Usable scfg mem request task)
    (hc : ChangesOnly low high mem mem')
    (hout : request.stackBuffer.toNat + request.stackSizeBytes.toNat ≤ low ∨
      high ≤ request.stackBuffer.toNat) : Usable scfg mem' request task := by
  refine { h with guard := fun hen => ?_ }
  obtain ⟨hlow, hhigh, hsize, hbytes⟩ := h.guard hen
  refine ⟨hlow, hhigh, hsize, fun index hi => ?_⟩
  have habove := h.frame_above
  have hinside := h.frame_inside
  have hframe : cm4fInitialFrameSizeBytes.toNat = 64 := rfl
  have hend := h.high
  have hlt := task.stackHigh.isLt
  rw [guardBytes_of_enabled hen, h.low] at habove
  have hat : (task.stackLow + BitVec.ofNat 32 index).toNat = request.stackBuffer.toNat + index := by
    rw [h.low, BitVec.toNat_add, BitVec.toNat_ofNat, Nat.mod_eq_of_lt (a := index) (by omega)]
    exact Nat.mod_eq_of_lt (by omega)
  rw [hc _ (by omega)]
  exact hbytes index hi

/-- A usable stack holds its guard bytes and the initial frame. -/
theorem Usable.hasRoom {task : TaskStack} (h : Usable scfg mem request task) :
    request.HasRoom scfg := by
  have habove := h.frame_above
  have hinside := h.frame_inside
  have hhigh := h.high
  rw [h.low] at habove
  unfold StackRequest.HasRoom
  omega

/-! ## Accepted stacks -/

/-- The validation of a configuration makes room for the guard bytes. -/
theorem TaskStackIsValid.hasRoom
    (h : TaskStackIsValid scfg request.stackBuffer request.stackSizeBytes) :
    request.HasRoom scfg := by
  obtain ⟨-, -, hmax, -, -, -, hmin, -⟩ := h
  unfold StackRequest.HasRoom StackConfig.guardBytes
  split <;> rename_i hen
  · have hfits := hmax hen
    rw [if_pos hen] at hmin
    simp only [cm4fTaskStackMinimumSizeBytes, cm4fInitialFrameSizeBytes, addressMax] at *
    bv_omega
  · rw [if_neg hen] at hmin
    exact hmin

theorem stackIsValid_of_validate {cfg : Config} {config : TaskConfig} {lifecycle : Lifecycle}
    (h : taskConfigValidate cfg (some config) lifecycle = .ok) : config.stackIsValid = true := by
  simp only [taskConfigValidate] at h
  grind

/-- A task is created only on a valid stack that the port has accepted. -/
theorem taskCreate_accepts {cfg : Config} {isr outHandle : Bool} {config : TaskConfig}
    {answer : StackAnswer} {k k' : Kernel} {handle : Option TaskId}
    (h : taskCreate cfg isr (some config) outHandle answer k = .ret (.ok, handle) k') :
    config.stackIsValid = true ∧ answer.status = .ok := by
  suffices hspec : wp (taskCreate cfg isr (some config) outHandle answer)
      (fun r _ => r.1 = .ok → config.stackIsValid = true ∧ answer.status = .ok)
        (fun _ _ => True) k from
    (wp_ret hspec h :) rfl
  unfold taskCreate
  rw [wp_ite]
  split
  · simp
  rw [wp_ite]
  split
  · exact wp_bind_of_forall (fun _ _ => by simp) fun _ _ => trivial
  rw [wp_bind, wp_get]
  split
  · rename_i config' hconfig hvalid
    obtain rfl := Option.some.inj hconfig
    have hstack := stackIsValid_of_validate hvalid
    refine wp_bind_of_forall (fun reserved k₁ => ?_) fun _ _ => trivial
    split
    · simp
    refine wp_bind_of_forall (fun status k₂ => ?_) fun _ _ => trivial
    rw [wp_ite]
    split
    · rename_i hs
      exact wp_bind_of_forall (fun _ _ => by simp [hs]) fun _ _ => trivial
    rw [wp_ite]
    split
    · exact wp_bind_of_forall (fun _ _ => by split <;> simp_all) fun _ _ => trivial
    · rename_i hs
      have hok : answer.status = .ok := by grind
      exact wp_bind_of_forall (fun _ _ => wp_mono (wp_of_state (P := fun _ => True) trivial)
        (fun _ _ _ _ => ⟨hstack, hok⟩) fun _ _ => id) fun _ _ => trivial
  · rename_i hnot
    rw [wp_pure]
    exact fun hok => absurd hok (hnot config rfl)

theorem init_accepts {cfg : Config} {isr : Bool} {port : InitAnswers} {k k' : Kernel}
    (h : init cfg isr port k = .ret .ok k') :
    port.serviceStackPointer ≠ none ∧ port.idleStackPointer ≠ none := by
  suffices hspec : wp (init cfg isr port) (fun status _ => status = .ok →
      port.serviceStackPointer ≠ none ∧ port.idleStackPointer ≠ none) (fun _ _ => True) k from
    (wp_ret hspec h :) rfl
  unfold init
  rw [wp_bind, wp_get, wp_ite]
  split
  · exact wp_bind_of_forall (fun _ _ => by simp) fun _ _ => trivial
  simp only [initPrivateTasks, initFail, wp_ite, wp_bind, wp_modify, wp_pure]
  split
  · simp
  split
  · simp
  split
  · simp
  split
  · simp
  rename_i hservice
  split
  · simp
  rename_i hidle
  exact wp_mono (wp_of_state (P := fun _ => True) trivial) (fun _ _ _ _ => by grind) fun _ _ => id

theorem StackAnswer.status_of_pointer {answer : StackAnswer} (h : answer.pointer? ≠ none) :
    answer.status = .ok := by
  by_contra hs
  exact h (if_neg hs)

/-- The completion of a switch between intact stacks does not report their corruption. -/
theorem complete_reports_no_corruption {cfg : Config} {snapshot : SwitchSnapshot} {k k' : Kernel} :
    schedulerSwitchComplete cfg snapshot true k ≠ .halt .stackCorruption k' := by
  intro h
  suffices hspec : wp (schedulerSwitchComplete cfg snapshot true) (fun _ _ => True)
      (fun reason _ => reason ≠ .stackCorruption) k from wp_halted hspec h rfl
  unfold schedulerSwitchComplete
  simp only [wp_ite, wp_bind, wp_get, wp_rtsAssert, wp_fatalUnless, wp_modify, wp_pure]
  simp

/-- The private stacks have room for the guard bytes and the initial frame. -/
def StackConfig.PrivateRoom (cfg : StackConfig) : Prop :=
  cm4fInitialFrameSizeBytes.toNat + cfg.guardBytes ≤ cfg.timerServiceStackSizeBytes.toNat ∧
  cm4fInitialFrameSizeBytes.toNat + cfg.guardBytes ≤ cfg.idleStackSizeBytes.toNat

/-- The stacks that `rts_init` accepts. -/
theorem PrivateStacks.usable (layout : PrivateStacks scfg) (hroom : scfg.PrivateRoom)
    (hservice : (layout.prepareService trap mem).1.status = .ok)
    (hidle : (layout.prepareIdle trap mem).1.status = .ok) :
    Usable scfg (layout.prepareIdle trap mem).2 layout.service
        (layout.service.taskStack (layout.prepareService trap mem).1) ∧
      Usable scfg (layout.prepareIdle trap mem).2 layout.idle
        (layout.idle.taskStack (layout.prepareIdle trap mem).1) := by
  have hroom₁ : layout.service.HasRoom scfg := hroom.1
  have hroom₂ : layout.idle.HasRoom scfg := hroom.2
  obtain ⟨huse₁, -⟩ := Usable.of_stackPrepare hservice hroom₁
  obtain ⟨huse₂, hchanges⟩ := Usable.of_stackPrepare hidle hroom₂
  refine ⟨huse₁.mono hchanges ?_, huse₂⟩
  have hend : layout.idle.stackEnd.toNat = _ := huse₂.high
  rw [hend]
  exact layout.disjoint

/-- The stack of every created task is usable. The private stacks after a successful initialisation
are usable if and only if they have room for the guard bytes and the frame. Between usable stacks no
switch reports corruption. -/
theorem accepted_stacks_usable (scfg : StackConfig) (trap : Address) :
    (∀ (request : StackRequest) (priority : Nat) (period relativeDeadline executionBudget : Tick)
      (mem : Memory) (cfg : Config) (isr outHandle : Bool) (k k' : Kernel) (handle : Option TaskId),
      taskCreate cfg isr
          (some (request.taskConfig scfg priority period relativeDeadline executionBudget))
          outHandle (stackPrepare scfg trap request mem).1 k = .ret (.ok, handle) k' →
      Usable scfg (stackPrepare scfg trap request mem).2 request
        (request.taskStack (stackPrepare scfg trap request mem).1)) ∧
    (∀ (layout : PrivateStacks scfg) (mem : Memory) (cfg : Config) (isr portOk : Bool)
      (k k' : Kernel), init cfg isr (layout.initAnswers trap portOk mem) k = .ret .ok k' →
      (Usable scfg (layout.prepareIdle trap mem).2 layout.service
          (layout.service.taskStack (layout.prepareService trap mem).1) ∧
        Usable scfg (layout.prepareIdle trap mem).2 layout.idle
          (layout.idle.taskStack (layout.prepareIdle trap mem).1) ↔
        scfg.PrivateRoom)) ∧
    ∀ (mem : Memory) (request request' : StackRequest) (task task' : TaskStack),
      Usable scfg mem request task → Usable scfg mem request' task' →
      ∀ (cfg : Config) (snapshot : SwitchSnapshot) (k k' : Kernel),
        schedulerSwitchComplete cfg snapshot (stacksIntact scfg mem task task') k ≠
          .halt .stackCorruption k' := by
  refine ⟨?_, ?_, ?_⟩
  · intro request priority period relativeDeadline executionBudget mem cfg isr outHandle k k' handle
      h
    obtain ⟨hvalid, hok⟩ := taskCreate_accepts h
    exact (Usable.of_stackPrepare hok (of_decide_eq_true hvalid : TaskStackIsValid ..).hasRoom).1
  · intro layout mem cfg isr portOk k k' h
    obtain ⟨hservice, hidle⟩ := init_accepts h
    constructor
    · rintro ⟨huse₁, huse₂⟩
      exact ⟨huse₁.hasRoom, huse₂.hasRoom⟩
    · exact fun hroom => layout.usable hroom (StackAnswer.status_of_pointer hservice)
        (StackAnswer.status_of_pointer hidle)
  · intro mem request request' task task' h h' cfg snapshot k k'
    rw [h.intact h']
    exact complete_reports_no_corruption

/-- Guards of 16 bytes, and the smallest private stacks with room for them. -/
def roomyStacks : StackConfig where
  enableStackGuards := true
  enableStackWatermark := false
  stackGuardSizeBytes := 16
  idleStackSizeBytes := 80
  timerServiceStackSizeBytes := 80
  guard_min := by decide
  idle_pos := by decide
  service_pos := by decide
  service_aligned := by decide

def roomyLayout : PrivateStacks roomyStacks :=
  ⟨0x1000, 0x2000, 3, 5, by decide, by decide, by decide, by decide, by decide, by decide,
    by decide⟩

theorem accepted_stacks_usable_smallest : ∃ k' : Kernel,
    init sampleConfig false (roomyLayout.initAnswers 1 true fun _ => 0) resetKernel = .ret .ok k' ∧
    (roomyLayout.prepareIdle 1 fun _ => 0).1.stackPointer = 0x2010 ∧
    Usable roomyStacks (roomyLayout.prepareIdle 1 fun _ => 0).2 roomyLayout.idle
      (roomyLayout.idle.taskStack (roomyLayout.prepareIdle 1 fun _ => 0).1) := by
  have hinit : (init sampleConfig false (roomyLayout.initAnswers 1 true fun _ => 0)
    resetKernel).value? = some .ok := by decide +kernel
  refine ⟨_, Outcome.eq_ret hinit, by decide +kernel, ?_⟩
  exact (((accepted_stacks_usable roomyStacks 1).2.1 roomyLayout _ sampleConfig false true _ _
    (Outcome.eq_ret hinit)).2 ⟨by decide, by decide⟩).2

/-- The same with private stacks that have room for the initial frame only. -/
def tightStacks : StackConfig :=
  { roomyStacks with
    idleStackSizeBytes := 64
    timerServiceStackSizeBytes := 64
    idle_pos := by decide
    service_pos := by decide
    service_aligned := by decide }

def tightLayout : PrivateStacks tightStacks :=
  ⟨0x1000, 0x2000, 3, 5, by decide, by decide, by decide, by decide, by decide, by decide,
    by decide⟩

/-- The initialisation accepts them although the frame of the idle task overwrites its guard bytes,
and the first switch to the idle task stops the system. -/
theorem idle_frame_over_guard : ∃ k' : Kernel,
    init sampleConfig false (tightLayout.initAnswers 1 true fun _ => 0) resetKernel = .ret .ok k' ∧
    ¬ StackGuardIsValid tightStacks (tightLayout.prepareIdle 1 fun _ => 0).2
      (tightLayout.idle.taskStack (tightLayout.prepareIdle 1 fun _ => 0).1) ∧
    ∀ (fromTask : TaskStack) (cfg : Config) (snapshot : SwitchSnapshot) (k : Kernel),
      schedulerSwitchComplete cfg snapshot (stacksIntact tightStacks
        (tightLayout.prepareIdle 1 fun _ => 0).2 fromTask
        (tightLayout.idle.taskStack (tightLayout.prepareIdle 1 fun _ => 0).1)) k =
          .halt .stackCorruption k := by
  have hinit : (init sampleConfig false (tightLayout.initAnswers 1 true fun _ => 0)
    resetKernel).value? = some .ok := by decide +kernel
  have hguard : ¬ StackGuardIsValid tightStacks (tightLayout.prepareIdle 1 fun _ => 0).2
      (tightLayout.idle.taskStack (tightLayout.prepareIdle 1 fun _ => 0).1) := by decide +kernel
  refine ⟨_, Outcome.eq_ret hinit, hguard, fun fromTask cfg snapshot k => ?_⟩
  have hintact : stacksIntact tightStacks (tightLayout.prepareIdle 1 fun _ => 0).2 fromTask
      (tightLayout.idle.taskStack (tightLayout.prepareIdle 1 fun _ => 0).1) = false :=
    decide_eq_false fun h => hguard h.2.1
  rw [hintact]
  rfl

end RtsKernel
