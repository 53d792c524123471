import Omniweft.HostedWorlds
import Omniweft.JsonText
import Omniweft.PolicyRuns

/-!
# The receipts of the hosts

Every error that a remote call can end with is in the grammar of the receipt reader,
and so is every receipt that the coordinator or the policy returns for it.
-/

namespace Omniweft.Control

open Omniweft.Outcome World Commands Transactions Policy
open Sdk (PathState ReadableBinding ReadableError ReadableReceipt codePattern pathPattern
  pathStep)

/-- The path of an error so far: at the end of a name or of an index. -/
structure Pointer (bound : Nat) (path : Text) : Prop where
  walks : ∃ state, path.foldlM pathStep .between = some state ∧
    (state = .name ∨ state = .index)
  short : path.length ≤ bound

/-- One or more further segments. -/
def segments : Text → Bool
  | 47 :: rest =>
      match rest.foldlM pathStep .opened with
      | some .name => true
      | some .index => true
      | _ => false
  | _ => false

theorem segments_walk {suffix : Text} (closed : segments suffix = true) {state : PathState}
    (ready : state ≠ .opened) :
    ∃ last, suffix.foldlM pathStep state = some last ∧ (last = .name ∨ last = .index) := by
  unfold segments at closed
  split at closed
  · rename_i rest
    have stepped : pathStep state 47 = some .opened := by
      cases state with
      | opened => exact absurd rfl ready
      | between | name | index => rfl
    rw [List.foldlM_cons, stepped]
    split at closed
    · rename_i walked
      exact ⟨_, walked, Or.inl rfl⟩
    · rename_i walked
      exact ⟨_, walked, Or.inr rfl⟩
    · exact absurd closed (by decide)
  · exact absurd closed (by decide)

theorem pointer_literal {path : Text} (closed : segments path = true) :
    Pointer path.length path :=
  ⟨segments_walk closed (by decide), Nat.le_refl _⟩

theorem Pointer.append {bound : Nat} {path : Text} (pointer : Pointer bound path)
    {suffix : Text} (closed : segments suffix = true) :
    Pointer (bound + suffix.length) (path ++ suffix) := by
  obtain ⟨⟨state, walked, shape⟩, short⟩ := pointer
  have ready : state ≠ .opened := by
    rcases shape with rfl | rfl
    · decide
    · decide
  refine ⟨?_, by rw [List.length_append]; omega⟩
  rw [List.foldlM_append, walked]
  exact segments_walk closed ready

theorem Pointer.weaken {bound more : Nat} {path : Text} (pointer : Pointer bound path)
    (le : bound ≤ more) : Pointer more path :=
  ⟨pointer.walks, pointer.short.trans le⟩

theorem Pointer.matches_ {bound : Nat} {path : Text} (pointer : Pointer bound path) :
    pathPattern path = true := by
  obtain ⟨⟨state, walked, rfl | rfl⟩, _⟩ := pointer
  · simp [pathPattern, walked]
  · simp [pathPattern, walked]

theorem digits_walk {digits : Text} (each : ∀ byte ∈ digits, JsonText.digitByte byte = true) :
    digits.foldlM pathStep .index = some .index := by
  induction digits with
  | nil => rfl
  | cons first rest inductionHypothesis =>
      have digit : Sdk.digit first = true := each first (List.mem_cons_self ..)
      have apart : first ≠ 47 := by
        intro same
        rw [same] at digit
        exact absurd digit (by decide)
      rw [List.foldlM_cons]
      simp only [pathStep, apart, if_false, digit, if_true, Option.bind_eq_bind,
        Option.bind_some]
      exact inductionHypothesis fun later member => each later (List.mem_cons_of_mem _ member)

theorem pointer_operation {index : Nat} (small : index ≤ 255) :
    Pointer 15 (operationPath index) := by
  have each := JsonText.decimal_digits index
  have short := @JsonText.decimal_length index 3 (by decide) (by omega)
  refine ⟨⟨.index, ?_, Or.inr rfl⟩, ?_⟩
  · have opened : (ascii "/operations/").foldlM pathStep .between = some .opened := by decide
    rw [operationPath, List.foldlM_append, opened, Option.bind_eq_bind, Option.bind_some]
    cases spelled : decimal index with
    | nil => exact absurd spelled (JsonText.decimal_ne_nil index)
    | cons first rest =>
        rw [spelled] at each
        have digit : Sdk.digit first = true := each first (List.mem_cons_self ..)
        have letterless : (Sdk.lower first || first == 95) = false := by
          simp only [Sdk.digit, Bool.and_eq_true, decide_eq_true_eq] at digit
          simp only [Sdk.lower, Bool.or_eq_false_iff, Bool.and_eq_false_iff,
            decide_eq_false_iff_not, beq_eq_false_iff_ne]
          grind
        rw [List.foldlM_cons]
        simp only [pathStep, letterless, Bool.false_eq_true, if_false, digit, if_true,
          Option.bind_eq_bind, Option.bind_some]
        exact digits_walk fun later member => each later (List.mem_cons_of_mem _ member)
  · have head : (ascii "/operations/").length = 12 := by decide
    rw [operationPath, List.length_append, head]
    omega

/-- The code and the message of an error are in the grammar. -/
def sayable (code message : String) : Bool :=
  codePattern (ascii code) && !(ascii message).isEmpty &&
    decide ((ascii message).length ≤ 1024) && (ascii message).all Json.printable

theorem readable_failure {code message : String} (said : sayable code message = true)
    {path : Text} (pointer : Pointer 256 path) {index : Option Nat}
    (small : ∀ number, index = some number → number ≤ 255) :
    ReadableError (failure code path message index) := by
  simp only [sayable, Bool.and_eq_true, Bool.not_eq_true', List.isEmpty_eq_false_iff,
    decide_eq_true_eq] at said
  obtain ⟨⟨⟨codeOk, nonempty⟩, long⟩, letters⟩ := said
  exact ⟨codeOk, pointer.matches_, pointer.short, ⟨nonempty, long⟩, letters, small⟩

theorem readable_below {code message : String} (said : sayable code message = true)
    {path suffix : Text} (pointer : Pointer 240 path) (closed : segments suffix = true)
    (short : suffix.length ≤ 16) {index : Nat} (small : index ≤ 255) :
    ReadableError (failure code (path ++ suffix) message (some index)) :=
  readable_failure said ((pointer.append closed).weaken (by omega))
    fun _ same => Option.some.inj same ▸ small

theorem readable_at {code message : String} (said : sayable code message = true)
    {path : Text} (pointer : Pointer 240 path) {index : Nat} (small : index ≤ 255) :
    ReadableError (failure code path message (some index)) :=
  readable_failure said (pointer.weaken (by decide)) fun _ same => Option.some.inj same ▸ small

theorem readable_literal {code path message : String} (said : sayable code message = true)
    (closed : segments (ascii path) = true) (short : (ascii path).length ≤ 256)
    {index : Option Nat} (small : ∀ number, index = some number → number ≤ 255) :
    ReadableError (failure code (ascii path) message index) :=
  readable_failure said ((pointer_literal closed).weaken short) small

/-! ## The coordinator -/

section Coordinator

variable {α : Type} [Scalar α] {index : Nat}

theorem transform_readable (operation : TransformSet α) {path : Text}
    (pointer : Pointer 240 path) (small : index ≤ 255) :
    Fails ReadableError (Transactions.transform operation path index) := by
  refine fails_bind (fails_rejectIf _ ?_) fun _ =>
    fails_bind (fails_rejectIf _ ?_) fun _ => fails_pure _
  · exact readable_below (by decide) pointer (by decide) (by decide) small
  · exact readable_below (by decide) pointer (by decide) (by decide) small

omit [Scalar α] in
theorem identify_readable (target : Target) (names : Names) {path : Text}
    (pointer : Pointer 240 path) (small : index ≤ 255) :
    Fails ReadableError (identify target names path index) := by
  unfold identify
  split
  · split
    · exact fails_ok _
    · exact fails_error (readable_below (by decide) pointer (by decide) (by decide) small)
  · exact fails_ok _

omit [Scalar α] in
theorem resolveIdentity_readable (staged : Snapshot α) (identity : EntityTarget)
    (temporary : Bool) {path : Text} (pointer : Pointer 240 path) (small : index ≤ 255) :
    Fails ReadableError (resolveIdentity staged identity temporary path index) := by
  have stale : ReadableError
      (failure "STALE_HANDLE"
        (path ++ if temporary then ascii "/temporary_id" else ascii "/generation")
        "Entity handle is deleted, retired or has a stale generation." (some index)) := by
    cases temporary with
    | true => exact readable_below (by decide) pointer (by decide) (by decide) small
    | false => exact readable_below (by decide) pointer (by decide) (by decide) small
  refine fails_bind (fails_rejectIf _ ?_) fun _ => ?_
  · exact readable_below (by decide) pointer (by decide) (by decide) small
  · split
    · exact fails_error (readable_below (by decide) pointer (by decide) (by decide) small)
    · dsimp only
      split
      · exact fails_error stale
      · exact fails_bind (fails_rejectIf _ stale) fun _ => fails_pure _

omit [Scalar α] in
theorem resolve_readable (staged : Snapshot α) (target : Target) (names : Names) {path : Text}
    (pointer : Pointer 240 path) (small : index ≤ 255) :
    Fails ReadableError (resolve staged target names path index) :=
  fails_bind (identify_readable target names pointer small) fun found =>
    resolveIdentity_readable staged found.1 found.2 pointer small

omit [Scalar α] in
theorem parentOf_readable (state : Snapshot α) (child : Slot α) :
    Fails ReadableError (parentOf state child) := by
  unfold parentOf
  split
  · exact fails_ok _
  · split
    · exact fails_ok _
    · exact fails_error (readable_literal (by decide) (by decide) (by decide) (by simp))

theorem parentScale_readable (value : Transform α) {path : Text} (pointer : Pointer 240 path)
    (small : index ≤ 255) : Fails ReadableError (parentScale value path index) :=
  fails_rejectIf _ (readable_at (by decide) pointer small)

theorem checked_readable (value : Transform α) {path : Text} (pointer : Pointer 240 path)
    (small : index ≤ 255) : Fails ReadableError (checked value path index) :=
  fails_bind (fails_rejectIf _ (readable_at (by decide) pointer small)) fun _ => fails_pure _

theorem compose_readable (parent value : Transform α) {path : Text}
    (pointer : Pointer 240 path) (small : index ≤ 255) :
    Fails ReadableError (compose parent value path index) :=
  fails_bind (parentScale_readable parent pointer small) fun _ =>
    checked_readable _ pointer small

theorem relative_readable (parent value : Transform α) {path : Text}
    (pointer : Pointer 240 path) (small : index ≤ 255) :
    Fails ReadableError (relative parent value path index) :=
  fails_bind (parentScale_readable parent pointer small) fun _ =>
    checked_readable _ pointer small

theorem subtreeChildren_readable (parent : Nat) {path : Text} (pointer : Pointer 240 path)
    (small : index ≤ 255) (positions : List Nat) (state : Snapshot α) (queue : List Nat) :
    Fails ReadableError (subtreeChildren parent path index positions state queue) := by
  induction positions generalizing state queue with
  | nil => exact fails_ok _
  | cons position rest inductionHypothesis =>
      unfold subtreeChildren
      split
      · split
        · refine fails_bind (fails_rejectIf _ (readable_at (by decide) pointer small)) fun _ => ?_
          exact fails_bind (compose_readable _ _ pointer small) fun _ =>
            inductionHypothesis _ _
        · exact inductionHypothesis _ _
      · exact inductionHypothesis _ _

theorem subtreeLoop_readable (revision : UInt64) {path : Text} (pointer : Pointer 240 path)
    (small : index ≤ 255) (fuel cursor : Nat) (state : Snapshot α) (queue : List Nat) :
    Fails ReadableError (subtreeLoop revision path index fuel cursor state queue) := by
  induction fuel generalizing cursor state queue with
  | zero => exact fails_ok _
  | succ fuel inductionHypothesis =>
      unfold subtreeLoop
      split
      · exact fails_ok _
      · split
        · exact fails_ok _
        · exact fails_bind (subtreeChildren_readable _ pointer small _ _ _) fun _ =>
            inductionHypothesis _ _ _

omit [Scalar α] in
theorem rejectCycle_readable (state : Snapshot α) (slot : Nat) {path : Text}
    (pointer : Pointer 240 path) (small : index ≤ 255) (steps : Nat)
    (parent : Option (Nat × Slot α × Entity α)) :
    Fails ReadableError (rejectCycle state slot path index steps parent) := by
  induction steps generalizing parent with
  | zero =>
      cases parent with
      | none => exact fails_ok _
      | some parent =>
          exact fails_error (readable_below (by decide) pointer (by decide) (by decide) small)
  | succ steps inductionHypothesis =>
      cases parent with
      | none => exact fails_ok _
      | some parent =>
          unfold rejectCycle
          split
          · exact fails_error
              (readable_below (by decide) pointer (by decide) (by decide) small)
          · exact fails_bind (parentOf_readable state _) fun _ => inductionHypothesis _

theorem reparent_readable (state : Snapshot α) (slot : Nat) (entity : Entity α)
    (parent : Option (Nat × Slot α × Entity α)) (mode : Text) {path : Text}
    (pointer : Pointer 200 path) (small : index ≤ 255) :
    Fails ReadableError (reparent state slot entity parent mode path index) := by
  have wide : Pointer 240 path := pointer.weaken (by decide)
  have below : Pointer 240 (path ++ ascii "/parent") :=
    (pointer.append (by decide)).weaken (by decide)
  refine fails_bind (rejectCycle_readable state slot wide small _ parent) fun _ => ?_
  cases parent with
  | none => exact fails_pure _
  | some parent =>
      refine fails_bind (parentScale_readable _ below small) fun _ => ?_
      dsimp only
      split
      · exact fails_bind (relative_readable _ _ wide small) fun _ => fails_pure _
      · exact fails_bind (compose_readable _ _ wide small) fun _ => fails_pure _

omit [Scalar α] in
theorem allocate_readable (staged : Snapshot α) {path : Text} (pointer : Pointer 240 path)
    (small : index ≤ 255) : Fails ReadableError (allocate staged path index) := by
  unfold allocate
  split
  · exact fails_ok _
  · exact fails_bind (fails_rejectIf _ (readable_at (by decide) pointer small)) fun _ =>
      fails_pure _

omit [Scalar α] in
theorem resolveParent_readable (staged : Snapshot α) (operation : EntityReparent)
    (names : Names) (small : index ≤ 255) :
    Fails ReadableError (resolveParent staged operation names index) := by
  have below : Pointer 240 (operationPath index ++ ascii "/parent") :=
    ((pointer_operation small).append (by decide)).weaken (by decide)
  unfold resolveParent
  split
  · exact fails_ok _
  · exact fails_map _ (resolve_readable staged _ names below small)

end Coordinator

/-- An `Error` that is thrown can be read. -/
def Readable (thrown : Thrown) : Prop :=
  ∀ error, thrown = .error error → ReadableError error

section Staging

variable {α σ : Type} [Scalar α] {index : Nat}

theorem raises_readable {β : Type} {computation : Except Error β}
    (fails : Fails ReadableError computation) :
    Raises Readable (attempt Thrown.error computation : EStateM Thrown σ β) := by
  refine raises_attempt fun raised stopped error same => ?_
  cases same
  exact fails _ stopped

/-- Whatever a hook throws on the first 256 operations can be read. -/
structure Speaks (guard : StagingGuard α σ) : Prop where
  begin : ∀ world envelope, Raises Readable (guard.begin world envelope)
  create : ∀ slot index, index ≤ 255 → Raises Readable (guard.create slot index)
  transform : ∀ slot before after index, index ≤ 255 →
    Raises Readable (guard.transform slot before after index)
  erase : ∀ slot before index, index ≤ 255 → Raises Readable (guard.erase slot before index)
  finish : ∀ staged, Raises Readable (guard.finish staged)

/-- A call that has the hook of a context, if it has one, speak. -/
def Heard (context : Context α σ) : Prop :=
  context.bindings = none ∧ ∀ guard, context.guard = some guard → Speaks guard

omit [Scalar α] in
theorem Heard.notify {context : Context α σ} (heard : Heard context)
    {call : StagingGuard α σ → EStateM Thrown σ Unit}
    (spoken : ∀ guard, Speaks guard → Raises Readable (call guard)) :
    Raises Readable (context.notify call) := by
  unfold Context.notify
  split
  · exact raises_pure _
  · rename_i guard held
    exact spoken guard (heard.2 guard held)

theorem applyCreate_readable {context : Context α σ} (heard : Heard context)
    (operation : EntityCreate) (small : index ≤ 255) (staging : Staging α) :
    Raises Readable (applyCreate context operation index staging) := by
  have pointer : Pointer 240 (operationPath index) :=
    (pointer_operation small).weaken (by decide)
  refine raises_bind (raises_readable (fails_rejectIf _ ?_)) fun _ => ?_
  · exact readable_below (by decide) pointer (by decide) (by decide) small
  refine raises_bind (raises_readable (fails_rejectIf _ ?_)) fun _ => ?_
  · exact readable_below (by decide) pointer (by decide) (by decide) small
  refine raises_bind (raises_readable (allocate_readable _ pointer small)) fun taken => ?_
  refine raises_bind (heard.notify fun guard spoken => spoken.create _ _ small) fun _ => ?_
  refine raises_bind (raises_readable ?_) fun _ => raises_pure _
  rw [heard.1]
  exact fails_ok _

theorem applyTransform_readable {context : Context α σ} (heard : Heard context)
    (operation : TransformSet α) (small : index ≤ 255) (staging : Staging α) :
    Raises Readable (applyTransform context operation index staging) := by
  have pointer := pointer_operation small
  have wide : Pointer 240 (operationPath index) := pointer.weaken (by decide)
  have target : Pointer 240 (operationPath index ++ ascii "/target") :=
    (pointer.append (by decide)).weaken (by decide)
  have scale : Pointer 240 (operationPath index ++ ascii "/scale") :=
    (pointer.append (by decide)).weaken (by decide)
  refine raises_bind (raises_readable (transform_readable operation wide small))
    fun replacement => ?_
  refine raises_bind (raises_readable (resolve_readable _ _ _ target small)) fun found => ?_
  refine raises_bind (heard.notify fun guard spoken => spoken.transform _ _ _ _ small)
    fun _ => ?_
  refine raises_bind (raises_readable ?_) fun _ => ?_
  · split
    · exact parentScale_readable _ scale small
    · exact fails_ok _
  refine raises_bind (raises_readable (parentOf_readable _ _)) fun parent => ?_
  refine raises_bind (raises_readable ?_) fun _ => ?_
  · split
    · exact relative_readable _ _ wide small
    · exact fails_ok _
  exact raises_bind (raises_readable (subtreeLoop_readable _ wide small _ _ _ _)) fun _ =>
    raises_pure _

omit [Scalar α] in
theorem applyTagsSet_readable (context : Context α σ) (operation : EntityTagsSet)
    (small : index ≤ 255) (staging : Staging α) :
    Raises Readable (applyTagsSet context operation index staging) := by
  have target : Pointer 240 (operationPath index ++ ascii "/target") :=
    ((pointer_operation small).append (by decide)).weaken (by decide)
  exact raises_bind (raises_readable (resolve_readable _ _ _ target small)) fun _ =>
    raises_pure _

theorem applyReparent_readable (context : Context α σ) (operation : EntityReparent)
    (small : index ≤ 255) (staging : Staging α) :
    Raises Readable (applyReparent context operation index staging) := by
  have pointer := pointer_operation small
  have target : Pointer 240 (operationPath index ++ ascii "/target") :=
    (pointer.append (by decide)).weaken (by decide)
  refine raises_bind (raises_readable (resolve_readable _ _ _ target small)) fun found => ?_
  refine raises_bind (raises_readable (resolveParent_readable _ operation _ small))
    fun parent => ?_
  refine raises_bind (raises_readable
    (reparent_readable _ _ _ parent _ (pointer.weaken (by decide)) small)) fun _ => ?_
  exact raises_bind (raises_readable
    (subtreeLoop_readable _ (pointer.weaken (by decide)) small _ _ _ _)) fun _ => raises_pure _

omit [Scalar α] in
theorem applyDelete_readable {context : Context α σ} (heard : Heard context)
    (operation : EntityDelete) (small : index ≤ 255) (staging : Staging α) :
    Raises Readable (applyDelete context operation index staging) := by
  have pointer := pointer_operation small
  have target : Pointer 240 (operationPath index ++ ascii "/target") :=
    (pointer.append (by decide)).weaken (by decide)
  refine raises_bind (raises_readable (resolve_readable _ _ _ target small)) fun found => ?_
  refine raises_bind (raises_readable (fails_rejectIf _ ?_)) fun _ => ?_
  · exact readable_below (by decide) (pointer.weaken (by decide)) (by decide) (by decide) small
  exact raises_bind (heard.notify fun guard spoken => spoken.erase _ _ _ small) fun _ =>
    raises_pure _

theorem applyOperation_readable {context : Context α σ} (heard : Heard context)
    (operation : Operation α) (small : index ≤ 255) (staging : Staging α) :
    Raises Readable (applyOperation context operation index staging) := by
  cases operation with
  | entityCreate operation => exact applyCreate_readable heard operation small staging
  | transformSet operation => exact applyTransform_readable heard operation small staging
  | entityTagsSet operation => exact applyTagsSet_readable context operation small staging
  | entityReparent operation => exact applyReparent_readable context operation small staging
  | entityDelete operation => exact applyDelete_readable heard operation small staging

theorem applyOperations_readable {context : Context α σ} (heard : Heard context)
    (operations : List (Operation α)) (few : index + operations.length ≤ 256)
    (staging : Staging α) :
    Raises Readable (applyOperations context operations index staging) := by
  induction operations generalizing index staging with
  | nil => exact raises_pure _
  | cons operation rest inductionHypothesis =>
      rw [List.length_cons] at few
      exact raises_bind (applyOperation_readable heard operation (by omega) staging)
        fun next => inductionHypothesis (by omega) next

theorem stage_readable {context : Context α σ} (heard : Heard context) (state : Snapshot α)
    {operations : List (Operation α)} (few : operations.length ≤ 256) :
    Raises Readable (stage context state operations) := by
  refine raises_bind (applyOperations_readable heard operations (by omega) _) fun final => ?_
  refine raises_bind (raises_readable ?_) fun _ => ?_
  · rw [heard.1]
    exact fails_ok _
  exact raises_bind (heard.notify fun guard spoken => spoken.finish _) fun _ => raises_pure _

end Staging

/-! ## The policy -/

section Guards

variable {α : Type}

theorem fieldBytes_readable (envelope : Envelope α) :
    Fails ReadableError (fieldBytes envelope) := by
  refine fails_bind (fails_rejectIf _ ?_) fun _ => fails_bind (fails_rejectIf _ ?_) fun _ =>
    fails_foldlM (fun total value => fails_bind (fails_rejectIf _ ?_) fun _ => fails_pure _) _ _
  · exact readable_literal (by decide) (by decide) (by decide) (by simp)
  · exact readable_literal (by decide) (by decide) (by decide) (by simp)
  · exact readable_literal (by decide) (by decide) (by decide) (by simp)

theorem admitLease_readable (ledger : Ledger) (principal bytes : Nat) :
    Fails (fun denied : Denied => ReadableError
        ⟨denied.code, denied.path, ascii "Policy admission denied.", none⟩)
      (admitLease ledger principal bytes) := by
  have granted : Fails (fun denied : Denied => ReadableError
      ⟨denied.code, denied.path, ascii "Policy admission denied.", none⟩) (grant principal) := by
    unfold grant
    split
    · exact fails_ok _
    · exact fails_error (readable_literal (by decide) (by decide) (by decide) (by simp))
  have charged : Fails (fun denied : Denied => ReadableError
      ⟨denied.code, denied.path, ascii "Policy admission denied.", none⟩)
      (workingCharge bytes) := by
    unfold workingCharge
    split
    · exact fails_error (readable_literal (by decide) (by decide) (by decide) (by simp))
    · exact fails_ok _
  refine fails_bind granted fun principal => fails_bind charged fun charge =>
    fails_bind (fails_rejectIf _ ?_) fun _ => fails_bind (fails_rejectIf _ ?_) fun _ =>
      fails_pure _
  · exact readable_literal (by decide) (by decide) (by decide) (by simp)
  · exact readable_literal (by decide) (by decide) (by decide) (by simp)

theorem index_readable (slot : Nat) : Raises Readable (Policy.index slot) := by
  unfold Policy.index
  split
  · exact raises_pure _
  · refine raises_throw fun error impossible => ?_
    cases impossible

theorem account_readable {operation : Nat} (small : operation ≤ 255) :
    Raises Readable (account operation) := by
  refine raises_bind raises_get fun guard => raises_bind (raises_set _) fun _ =>
    raises_readable (fails_rejectIf _ ?_)
  exact readable_literal (by decide) (by decide) (by decide) (by simpa using small)

theorem create_readable (slot : Nat) {operation : Nat} (small : operation ≤ 255) :
    Raises Readable (Policy.create slot operation) := by
  refine raises_bind (raises_readable (fails_rejectIf _ ?_)) fun _ =>
    raises_bind (index_readable slot) fun place =>
      raises_bind (raises_modify _) fun _ => account_readable small
  exact readable_literal (by decide) (by decide) (by decide) (by simpa using small)

variable [Scalar α]

omit [Scalar α] in
theorem begin_readable (world : LiveWorld α) (envelope : Envelope α) :
    Raises Readable (begin world envelope) := by
  refine raises_bind raises_get fun guard => ?_
  refine raises_bind (raises_readable (fails_rejectIf _ ?_)) fun _ => ?_
  · exact readable_literal (by decide) (by decide) (by decide) (by simp)
  refine raises_bind (raises_set _) fun _ => ?_
  refine raises_bind (raises_readable (fieldBytes_readable envelope)) fun bytes => ?_
  refine raises_bind (raises_readable (fails_rejectIf _ ?_)) fun _ => ?_
  · exact readable_literal (by decide) (by decide) (by decide) (by simp)
  refine raises_bind (raises_readable (fails_rejectIf _ ?_)) fun _ => ?_
  · exact readable_literal (by decide) (by decide) (by decide) (by simp)
  refine raises_bind (raises_readable (fails_rejectIf _ ?_)) fun _ => ?_
  · exact readable_literal (by decide) (by decide) (by decide) (by simp)
  refine raises_bind (raises_readable (fails_rejectIf _ ?_)) fun _ => raises_modify _
  exact readable_literal (by decide) (by decide) (by decide) (by simp)

theorem scope_readable (transform : Transform α) {operation : Nat} (small : operation ≤ 255) :
    Raises Readable (scope transform operation) := by
  refine raises_bind raises_get fun guard => raises_readable (fails_rejectIf _ ?_)
  exact readable_literal (by decide) (by decide) (by decide) (by simpa using small)

theorem scopeBefore_readable (place : Fin slotCount) (before : Transform α) {operation : Nat}
    (small : operation ≤ 255) : Raises Readable (scopeBefore place before operation) := by
  refine raises_bind raises_get fun guard => ?_
  split
  · exact raises_pure _
  · exact scope_readable before small

omit [Scalar α] in
theorem finish_readable (staged : Snapshot α) : Raises Readable (finish staged) := by
  refine raises_bind raises_get fun guard =>
    raises_bind (raises_readable (fails_rejectIf _ ?_)) fun _ => raises_modify _
  exact readable_literal (by decide) (by decide) (by decide) (by simp)

/-- Every rejection of the policy can be read. -/
theorem hook_speaks : Speaks (hook : StagingGuard α Guard) where
  begin := begin_readable
  create := fun slot _ small => create_readable slot small
  transform := fun slot before after _ small =>
    raises_bind (index_readable slot) fun place =>
      raises_bind (scopeBefore_readable place before small) fun _ =>
        raises_bind (scope_readable after small) fun _ => raises_modify _
  erase := fun slot before _ small =>
    raises_bind (index_readable slot) fun place =>
      raises_bind (scopeBefore_readable place before small) fun _ =>
        raises_bind (raises_modify _) fun _ => account_readable small
  finish := finish_readable

end Guards

/-! ## The receipts -/

section Receipts

variable {α σ : Type} [Scalar α] {library : JsonLibrary α}

theorem admission_readable (faithful : library.Faithful) (state : Snapshot α)
    {envelope : Envelope α} (valid : ValidEnvelope envelope) :
    Fails (fun errors => ∃ error, errors = [error] ∧ ReadableError error)
      (admission library state envelope) := by
  obtain ⟨bytes, written, _⟩ := serialize_valid faithful valid
  refine fails_bind ?_ fun _ => ?_
  · rw [written]
    exact fails_ok _
  refine fails_bind (fails_rejectIf _ ⟨_, rfl, ?_⟩) fun _ => ?_
  · exact readable_literal (by decide) (by decide) (by decide) (by simp)
  refine fails_bind (fails_rejectIf _ ⟨_, rfl, ?_⟩) fun _ => fails_rejectIf _ ⟨_, rfl, ?_⟩
  · exact readable_literal (by decide) (by decide) (by decide) (by simp)
  · exact readable_literal (by decide) (by decide) (by decide) (by simp)

/-- A receipt of a refusal names the transaction and one error. -/
structure Refusal (envelope : Envelope α) (receipt : Receipt) : Prop where
  status : receipt.status = ascii "rejected"
  durability : receipt.durability = ascii "volatile"
  transactionId : receipt.transactionId = envelope.transactionId
  created : receipt.created = []
  errors : ∃ error, receipt.errors = [error] ∧ ReadableError error

omit [Scalar α] in
theorem kept_identifier {identifier : Text} (valid : validUuid identifier = true)
    (guarded : Bool) :
    (if !guarded || decide (identifier.length ≤ 128) then identifier else []) =
      identifier := by
  have length := validUuid_length valid
  simp [length]

theorem Refusal.readable {envelope : Envelope α} {receipt : Receipt}
    (refusal : Refusal envelope receipt) (valid : ValidEnvelope envelope) :
    ReadableReceipt receipt := by
  obtain ⟨status, durability, named, created, error, errors, readable⟩ := refusal
  refine ⟨?_, durability, ?_, ?_, ?_, Or.inr ⟨status, created, ?_⟩⟩
  · rw [named]
    exact valid.header.transactionId
  · simp [created, errors]
  · simp [created]
  · simpa [errors] using readable
  · simp [errors]

/-- A plain or guarded call that publishes nothing says so, and says why. -/
theorem coordinator_refusal (faithful : library.Faithful) (world : LiveWorld α)
    {envelope : Envelope α} (valid : ValidEnvelope envelope)
    {guard : Option (StagingGuard α σ)} (speaks : ∀ held, guard = some held → Speaks held)
    (guardState : σ) {receipt : Receipt}
    (answered :
      (applyAtBoundary library world envelope guard (none : Option (CommitObserver α Unit))
        guardState ()).result = .ok receipt)
    (rejected : receipt.status ≠ ascii "committed") : Refusal envelope receipt := by
  have heard : Heard (⟨guard, none, world.state.worldRevision + 1⟩ : Context α σ) :=
    ⟨rfl, speaks⟩
  have few : envelope.operations.length ≤ 256 := valid.length_le
  have named := kept_identifier valid.header.transactionId guard.isSome
  have refused : ∀ thrown guardState observerState, Readable thrown →
      (refuse (initialReceipt guard.isSome envelope world.state.worldRevision) world thrown
        guardState observerState : Applied α σ Unit).result = .ok receipt →
      Refusal envelope receipt := by
    intro thrown guardState observerState readable same
    cases thrown with
    | error error =>
        rw [← Except.ok.inj same]
        exact ⟨rfl, rfl, named, rfl, error, rfl, readable error rfl⟩
    | failure code => cases same
    | other => cases same
  unfold applyAtBoundary Transactions.apply at answered
  dsimp only at answered
  split at answered
  · rename_i thrown after begun
    exact refused thrown after () (heard.notify (fun held spoken => spoken.begin world envelope)
      _ _ _ begun) answered
  · split at answered
    · rename_i errors stopped
      obtain ⟨error, same, readable⟩ := admission_readable faithful world.state valid _ stopped
      rw [← Except.ok.inj answered]
      exact ⟨rfl, rfl, named, rfl, error, same, readable⟩
    · split at answered
      · rename_i thrown after stopped
        exact refused thrown after () (stage_readable heard world.state few _ _ _ stopped)
          answered
      · exact absurd (Except.ok.inj answered ▸ rfl) rejected

section Hosted

variable (small : ∀ number : Int, number.natAbs ≤ 2 ^ 53 →
  Scalar.isFinite (Scalar.ofInt number : α) = true)

include small

/-- Every receipt of the coordinator, plain or under the guard. -/
theorem coordinator_readable (faithful : library.Faithful) {world : LiveWorld α}
    (hosted : Hosted library world) {envelope : Envelope α} (valid : ValidEnvelope envelope)
    (remote : Remote envelope) {guard : Option (StagingGuard α σ)}
    (speaks : ∀ held, guard = some held → Speaks held) (guardState : σ) {receipt : Receipt}
    (answered :
      (applyAtBoundary library world envelope guard (none : Option (CommitObserver α Unit))
        guardState ()).result = .ok receipt) :
    ReadableReceipt receipt := by
  rcases apply_commits_or_keeps library world envelope guard
      (none : Option (CommitObserver α Unit)) none guardState () with
    ⟨next, created, committed, _, same⟩ | ⟨_, refused⟩
  · obtain ⟨seed, maxSlots, settled⟩ := hosted.settled small
    obtain ⟨_, bindings⟩ := settled.commits small remote committed
    have few := committed.created_le
    have many : envelope.operations.length ≤ 256 := valid.length_le
    have named := kept_identifier valid.header.transactionId guard.isSome
    obtain rfl := Except.ok.inj (same.symm.trans answered)
    refine ⟨?_, rfl, ⟨few.trans many, Nat.zero_le _⟩, bindings, ?_, Or.inl ⟨rfl, rfl⟩⟩
    · change Python.uuidPattern (if _ then _ else _) = true
      rw [named]
      exact valid.header.transactionId
    · intro error member
      cases member
  · obtain ⟨status, _, _⟩ := refused receipt answered
    have rejected : receipt.status ≠ ascii "committed" := by
      rw [status]
      decide
    exact (coordinator_refusal faithful world valid speaks guardState answered
      rejected).readable valid

/-- Every receipt of `policy::apply`. -/
theorem policy_readable (faithful : library.Faithful) {world : LiveWorld α}
    (hosted : Hosted library world) {envelope : Envelope α} (valid : ValidEnvelope envelope)
    (remote : Remote envelope) (ledger : Ledger) (principal : Nat) {receipt : Receipt}
    (answered : (Policy.apply library world envelope ledger principal).result = .ok receipt) :
    ReadableReceipt receipt := by
  have length := validUuid_length valid.header.transactionId
  have refused : ∀ error, ReadableError error →
      Refusal envelope (refusal envelope ledger error) := by
    intro error readable
    exact ⟨rfl, rfl, if_pos (by omega), rfl, error, rfl, readable⟩
  unfold Policy.apply at answered
  split at answered
  · rename_i error stopped
    rw [← Except.ok.inj answered]
    exact (refused error (fieldBytes_readable envelope _ stopped)).readable valid
  · split at answered
    · rename_i denied stopped
      rw [← Except.ok.inj answered]
      exact (refused _ (admitLease_readable ledger principal _ _ stopped)).readable valid
    · exact coordinator_readable small faithful hosted valid remote
        (fun held same => Option.some.inj same ▸ hook_speaks) _ answered

end Hosted

end Receipts

end Omniweft.Control
