import Omniweft.Text
import Mathlib.Data.List.Induction

/-!
# The launcher's pipe

The launcher of a host writes lines to its private pipe: at most 64 to renew the
session, and one to stop. Between two connections the host reads whatever part of
them is there, until its deadline. It does not matter how the bytes were cut, and
of the time it matters only which of them came too late.
-/

namespace Omniweft.Launcher

def maximumRenewals : Nat := 64

def renewCommand : Text := ascii "renew"

def stopCommand : Text := ascii "stop"

def newline : UInt8 := 10

/-- `pending_command_` and `renewals_`. -/
structure Pipe where
  pending : Text
  renewals : Nat
  deriving DecidableEq, Repr

/-- What `renew` comes to: the session is renewed, or the deadline has passed, or
there are no random numbers or nobody reads the descriptor. -/
inductive Renewal where
  | done
  | late
  | failed
  deriving DecidableEq, Repr

/-- How reading goes on: the host serves and looks again, ends in order, or fails;
after a number of renewals. -/
inductive Outcome where
  | serving (pipe : Pipe)
  | ended (renewals : Nat)
  | failed (renewals : Nat)
  deriving DecidableEq, Repr

/-- What the host does with an outcome: it reads on, or it does not. -/
def Outcome.andThen (outcome : Outcome) (next : Pipe → Outcome) : Outcome :=
  match outcome with
  | .serving pipe => next pipe
  | .ended renewals => .ended renewals
  | .failed renewals => .failed renewals

/-- What is found in the pipe: nothing, an error of the system, or bytes, each with
the time at which it is handled. No bytes are the end of the pipe. -/
inductive Found where
  | nothing
  | broken
  | bytes (chunk : List (UInt8 × Nat))
  deriving Repr

/-- A look at the pipe, and the time before it. -/
structure Look where
  time : Nat
  found : Found
  deriving Repr

/-- The start of a command. -/
def starts (pending : Text) : Bool :=
  pending.isPrefixOf renewCommand || pending.isPrefixOf stopCommand

section Hosts

variable (renewal : Nat → Renewal)

/-- The end of a line, with what its renewal would come to. -/
def line (pipe : Pipe) : Outcome :=
  if pipe.pending = stopCommand then .ended pipe.renewals
  else if pipe.pending ≠ renewCommand ∨ maximumRenewals ≤ pipe.renewals then
    .failed pipe.renewals
  else
    match renewal pipe.renewals with
    | .done => .serving ⟨[], pipe.renewals + 1⟩
    | .late => .ended (pipe.renewals + 1)
    | .failed => .failed (pipe.renewals + 1)

/-- The body of the loop over the characters of a chunk. -/
def character (pipe : Pipe) (value : UInt8) : Outcome :=
  if value = newline then line renewal pipe
  else if 5 ≤ pipe.pending.length ∨ value < 97 ∨ 122 < value then
    .failed pipe.renewals
  else if starts (pipe.pending ++ [value]) then
    .serving ⟨pipe.pending ++ [value], pipe.renewals⟩
  else .failed pipe.renewals

variable (tests : Bool) (deadline : Nat)

/-- The loop over the characters of a chunk. One of the two hosts `tests` the
deadline before each of them. -/
def characters (pipe : Pipe) : List (UInt8 × Nat) → Outcome
  | [] => .serving pipe
  | (value, time) :: rest =>
      if tests ∧ deadline ≤ time then .ended pipe.renewals
      else (character renewal pipe value).andThen fun next => characters next rest

/-- `host_commands`, over all its calls: a call returns to serve when it finds
nothing, and the next one looks again. -/
def commands (pipe : Pipe) : List Look → Outcome
  | [] => .serving pipe
  | look :: rest =>
      if deadline ≤ look.time then .ended pipe.renewals
      else
        match look.found with
        | .nothing => commands pipe rest
        | .broken => .failed pipe.renewals
        | .bytes [] =>
            if pipe.pending = [] then .ended pipe.renewals
            else .failed pipe.renewals
        | .bytes (first :: more) =>
            (characters renewal tests deadline pipe (first :: more)).andThen
              fun next => commands next rest

def Host.hostCommands : Pipe → List Look → Outcome :=
  commands renewal true deadline

/-- The policy host takes a chunk it has read as a whole, whatever the time. -/
def PolicyHost.hostCommands : Pipe → List Look → Outcome :=
  commands renewal false deadline

/-- How the bytes that come in time end: they go on, the launcher has closed the
pipe, it cannot be read, or the rest is late. -/
inductive Ending where
  | going
  | closed
  | broken
  | late
  deriving DecidableEq, Repr

/-- The bytes of a chunk before the first that is late, and whether these are all. -/
def heard : List (UInt8 × Nat) → Text × Bool
  | [] => ([], true)
  | (value, time) :: rest =>
      if tests ∧ deadline ≤ time then ([], false)
      else (value :: (heard rest).1, (heard rest).2)

/-- What the launcher wrote that comes in time, and how that ends. -/
def stream : List Look → Text × Ending
  | [] => ([], .going)
  | look :: rest =>
      if deadline ≤ look.time then ([], .late)
      else
        match look.found with
        | .nothing => stream rest
        | .broken => ([], .broken)
        | .bytes [] => ([], .closed)
        | .bytes (first :: more) =>
            if (heard tests deadline (first :: more)).2 then
              ((heard tests deadline (first :: more)).1 ++ (stream rest).1,
                (stream rest).2)
            else ((heard tests deadline (first :: more)).1, .late)

/-- Reading a text, all of it in time. -/
def scan (pipe : Pipe) : Text → Outcome
  | [] => .serving pipe
  | value :: rest =>
      (character renewal pipe value).andThen fun next => scan next rest

/-- What is made of the end of the stream. -/
def settled (ending : Ending) (pipe : Pipe) : Outcome :=
  match ending with
  | .going => .serving pipe
  | .closed =>
      if pipe.pending = [] then .ended pipe.renewals else .failed pipe.renewals
  | .broken => .failed pipe.renewals
  | .late => .ended pipe.renewals

theorem andThen_assoc (outcome : Outcome) (first second : Pipe → Outcome) :
    (outcome.andThen first).andThen second =
      outcome.andThen fun pipe => (first pipe).andThen second := by
  cases outcome <;> rfl

theorem scan_append (front back : Text) (pipe : Pipe) :
    scan renewal pipe (front ++ back) =
      (scan renewal pipe front).andThen fun next => scan renewal next back := by
  induction front generalizing pipe with
  | nil => rfl
  | cons value rest inductionHypothesis =>
      rw [List.cons_append, scan, scan, andThen_assoc]
      congr 1
      funext next
      exact inductionHypothesis next

/-- A chunk is read up to its first late byte. -/
theorem characters_eq (chunk : List (UInt8 × Nat)) (pipe : Pipe) :
    characters renewal tests deadline pipe chunk =
      (scan renewal pipe (heard tests deadline chunk).1).andThen fun next =>
        if (heard tests deadline chunk).2 then .serving next
        else .ended next.renewals := by
  induction chunk generalizing pipe with
  | nil => rfl
  | cons arrival rest inductionHypothesis =>
      rw [characters, heard]
      by_cases late : tests ∧ deadline ≤ arrival.2
      · rw [if_pos late, if_pos late]
        rfl
      · rw [if_neg late, if_neg late, scan, andThen_assoc]
        congr 1
        funext next
        exact inductionHypothesis next

/-- Only the stream counts, not how it was read. -/
theorem commands_eq (looks : List Look) (pipe : Pipe) :
    commands renewal tests deadline pipe looks =
      (scan renewal pipe (stream tests deadline looks).1).andThen
        (settled (stream tests deadline looks).2) := by
  induction looks generalizing pipe with
  | nil => rfl
  | cons look rest inductionHypothesis =>
      obtain ⟨time, found⟩ := look
      rw [commands, stream]
      by_cases late : deadline ≤ time
      · rw [if_pos late, if_pos late]
        rfl
      · rw [if_neg late, if_neg late]
        cases found with
        | nothing => exact inductionHypothesis pipe
        | broken => rfl
        | bytes chunk =>
            cases chunk with
            | nil => rfl
            | cons first more =>
                dsimp only
                rw [characters_eq, andThen_assoc]
                by_cases whole : (heard tests deadline (first :: more)).2 = true
                · rw [if_pos whole, scan_append, andThen_assoc]
                  congr 1
                  funext next
                  rw [if_pos whole]
                  exact inductionHypothesis next
                · rw [if_neg whole]
                  congr 1
                  funext next
                  rw [if_neg whole]
                  rfl

/-- Lines that renew the session. -/
def renewals (count : Nat) : Text :=
  (List.replicate count (renewCommand ++ [newline])).flatten

def stopLine : Text := stopCommand ++ [newline]

/-- The first renewals are done. -/
def Renewed (count : Nat) : Prop :=
  ∀ earlier < count, renewal earlier = .done

theorem renewals_succ (count : Nat) :
    renewals (count + 1) = renewals count ++ (renewCommand ++ [newline]) := by
  rw [renewals, List.replicate_succ', List.flatten_append, List.flatten_singleton]
  rfl

variable {renewal}

theorem Renewed.succ {count : Nat} (renewed : Renewed renewal count)
    (done : renewal count = .done) : Renewed renewal (count + 1) := by
  intro earlier less
  rcases Nat.lt_succ_iff_lt_or_eq.mp less with before | rfl
  · exact renewed earlier before
  · exact done

/-- What one character may lead to. -/
def Leads (renewal : Nat → Renewal) (pipe : Pipe) (value : UInt8) : Outcome → Prop
  | .serving next =>
      (value = newline ∧ pipe.pending = renewCommand ∧
          pipe.renewals < maximumRenewals ∧ renewal pipe.renewals = .done ∧
          next = ⟨[], pipe.renewals + 1⟩) ∨
        (starts next.pending = true ∧ next = ⟨pipe.pending ++ [value], pipe.renewals⟩)
  | .ended count =>
      value = newline ∧
        ((pipe.pending = stopCommand ∧ count = pipe.renewals) ∨
          (pipe.pending = renewCommand ∧ pipe.renewals < maximumRenewals ∧
            renewal pipe.renewals = .late ∧ count = pipe.renewals + 1))
  | .failed count =>
      count = pipe.renewals ∨
        (value = newline ∧ pipe.pending = renewCommand ∧
          pipe.renewals < maximumRenewals ∧ renewal pipe.renewals = .failed ∧
          count = pipe.renewals + 1)

theorem line_leads (pipe : Pipe) :
    Leads renewal pipe newline (line renewal pipe) := by
  unfold line
  by_cases stops : pipe.pending = stopCommand
  · rw [if_pos stops]
    exact ⟨rfl, Or.inl ⟨stops, rfl⟩⟩
  · rw [if_neg stops]
    by_cases refused : pipe.pending ≠ renewCommand ∨ maximumRenewals ≤ pipe.renewals
    · rw [if_pos refused]
      exact Or.inl rfl
    · rw [if_neg refused]
      obtain ⟨renews, less⟩ := not_or.mp refused
      have renews := not_not.mp renews
      have less := Nat.not_le.mp less
      cases told : renewal pipe.renewals with
      | done => exact Or.inl ⟨rfl, renews, less, told, rfl⟩
      | late => exact ⟨rfl, Or.inr ⟨renews, less, told, rfl⟩⟩
      | failed => exact Or.inr ⟨rfl, renews, less, told, rfl⟩

theorem character_leads (pipe : Pipe) (value : UInt8) :
    Leads renewal pipe value (character renewal pipe value) := by
  unfold character
  by_cases ends : value = newline
  · rw [if_pos ends, ends]
    exact line_leads pipe
  · rw [if_neg ends]
    by_cases foreign : 5 ≤ pipe.pending.length ∨ value < 97 ∨ 122 < value
    · rw [if_pos foreign]
      exact Or.inl rfl
    · rw [if_neg foreign]
      by_cases started : starts (pipe.pending ++ [value]) = true
      · rw [if_pos started]
        exact Or.inr ⟨started, rfl⟩
      · rw [if_neg started]
        exact Or.inl rfl

/-- After the renewals that were done, the last one was not. -/
def Unrenewed (renewal : Nat → Renewal) (what : Renewal) (count : Nat) : Prop :=
  ∃ earlier, count = earlier + 1 ∧ Renewed renewal earlier ∧ renewal earlier = what

/-- What an outcome says of the text that was read. -/
def Tells (renewal : Nat → Renewal) (text : Text) : Outcome → Prop
  | .serving pipe =>
      pipe.renewals ≤ maximumRenewals ∧ Renewed renewal pipe.renewals ∧
        starts pipe.pending = true ∧ text = renewals pipe.renewals ++ pipe.pending
  | .ended count =>
      count ≤ maximumRenewals ∧
        ((Renewed renewal count ∧ ∃ rest, text = renewals count ++ (stopLine ++ rest)) ∨
          (Unrenewed renewal .late count ∧ ∃ rest, text = renewals count ++ rest))
  | .failed count =>
      count ≤ maximumRenewals ∧
        (Renewed renewal count ∨ Unrenewed renewal .failed count) ∧
        ∃ rest, text = renewals count ++ rest

theorem renewals_line {pipe : Pipe} (renews : pipe.pending = renewCommand)
    (rest : Text) :
    renewals pipe.renewals ++ (pipe.pending ++ newline :: rest) =
      renewals (pipe.renewals + 1) ++ rest := by
  rw [renewals_succ, renews]
  simp

theorem scan_tells {pipe : Pipe} (text : Text) (started : starts pipe.pending = true)
    (few : pipe.renewals ≤ maximumRenewals) (renewed : Renewed renewal pipe.renewals) :
    Tells renewal (renewals pipe.renewals ++ (pipe.pending ++ text))
      (scan renewal pipe text) := by
  induction text generalizing pipe with
  | nil => exact ⟨few, renewed, started, by rw [List.append_nil]⟩
  | cons value rest inductionHypothesis =>
      rw [scan]
      have leads := @character_leads renewal pipe value
      cases read : character renewal pipe value with
      | ended count =>
          rw [read] at leads
          obtain ⟨rfl, ⟨stops, rfl⟩ | ⟨renews, less, late, rfl⟩⟩ := leads
          · refine ⟨few, Or.inl ⟨renewed, rest, ?_⟩⟩
            rw [stops, stopLine, List.append_assoc]
            rfl
          · exact ⟨less, Or.inr ⟨⟨_, rfl, renewed, late⟩, rest, renewals_line renews rest⟩⟩
      | failed count =>
          rw [read] at leads
          obtain rfl | ⟨rfl, renews, less, failed, rfl⟩ := leads
          · exact ⟨few, Or.inl renewed, _, rfl⟩
          · exact ⟨less, Or.inr ⟨_, rfl, renewed, failed⟩, rest, renewals_line renews rest⟩
      | serving next =>
          rw [read] at leads
          rcases leads with ⟨rfl, renews, less, done, rfl⟩ | ⟨begun, rfl⟩
          · rw [renewals_line renews]
            exact inductionHypothesis rfl less (renewed.succ done)
          · have same : renewals pipe.renewals ++ (pipe.pending ++ value :: rest) =
                renewals pipe.renewals ++ (pipe.pending ++ [value] ++ rest) := by
              simp
            rw [same]
            exact inductionHypothesis begun few renewed

/-- What an outcome says of a stream. -/
def TellsStream (renewal : Nat → Renewal) (text : Text) (ending : Ending) :
    Outcome → Prop
  | .serving pipe =>
      ending = .going ∧ pipe.renewals ≤ maximumRenewals ∧
        Renewed renewal pipe.renewals ∧ starts pipe.pending = true ∧
        text = renewals pipe.renewals ++ pipe.pending
  | .ended count =>
      count ≤ maximumRenewals ∧
        ((Renewed renewal count ∧
            ((∃ rest, text = renewals count ++ (stopLine ++ rest)) ∨
              (ending = .closed ∧ text = renewals count) ∨
              (ending = .late ∧
                ∃ pending, starts pending = true ∧ text = renewals count ++ pending))) ∨
          (Unrenewed renewal .late count ∧ ∃ rest, text = renewals count ++ rest))
  | .failed count =>
      count ≤ maximumRenewals ∧
        (Renewed renewal count ∨ Unrenewed renewal .failed count) ∧
        ∃ rest, text = renewals count ++ rest

theorem settled_tells {text : Text} {pipe : Pipe}
    (told : Tells renewal text (.serving pipe)) (ending : Ending) :
    TellsStream renewal text ending (settled ending pipe) := by
  obtain ⟨few, renewed, started, same⟩ := told
  cases ending with
  | going => exact ⟨rfl, few, renewed, started, same⟩
  | broken => exact ⟨few, Or.inl renewed, pipe.pending, same⟩
  | late =>
      exact ⟨few, Or.inl ⟨renewed, Or.inr (Or.inr ⟨rfl, pipe.pending, started, same⟩)⟩⟩
  | closed =>
      unfold settled
      by_cases empty : pipe.pending = []
      · rw [if_pos empty]
        rw [empty, List.append_nil] at same
        exact ⟨few, Or.inl ⟨renewed, Or.inr (Or.inl ⟨rfl, same⟩)⟩⟩
      · rw [if_neg empty]
        exact ⟨few, Or.inl renewed, pipe.pending, same⟩

variable {tests deadline}

theorem commands_tells (looks : List Look) :
    TellsStream renewal (stream tests deadline looks).1 (stream tests deadline looks).2
      (commands renewal tests deadline ⟨[], 0⟩ looks) := by
  have told : Tells renewal (stream tests deadline looks).1
      (scan renewal ⟨[], 0⟩ (stream tests deadline looks).1) :=
    scan_tells (stream tests deadline looks).1 rfl (Nat.zero_le _)
      fun earlier less => absurd less (Nat.not_lt_zero earlier)
  rw [commands_eq]
  cases whole : scan renewal ⟨[], 0⟩ (stream tests deadline looks).1 with
  | serving next =>
      rw [whole] at told
      exact settled_tells told _
  | ended count =>
      rw [whole] at told
      obtain ⟨few, ⟨renewed, stops⟩ | unrenewed⟩ := told
      · exact ⟨few, Or.inl ⟨renewed, Or.inl stops⟩⟩
      · exact ⟨few, Or.inr unrenewed⟩
  | failed count =>
      rw [whole] at told
      exact told

theorem starts_iff {pending : Text} :
    starts pending = true ↔ pending <+: renewCommand ∨ pending <+: stopCommand := by
  simp [starts]

/-- A command is five letters at most. -/
theorem command_letters {command : Text} (either : command = renewCommand ∨ command = stopCommand) :
    command.length ≤ 5 ∧
      ∀ value ∈ command, value ≠ newline ∧ ¬ (value < 97 ∨ 122 < value) := by
  have letters : command.length ≤ 5 ∧
      (command.all fun value => value != newline && 97 ≤ value.toNat && value.toNat ≤ 122) =
        true := by
    rcases either with rfl | rfl
    · exact ⟨by decide, rfl⟩
    · exact ⟨by decide, rfl⟩
  refine ⟨letters.1, ?_⟩
  intro value member
  have letter := List.all_eq_true.mp letters.2 value member
  rw [Bool.and_eq_true, Bool.and_eq_true, bne_iff_ne, decide_eq_true_iff,
    decide_eq_true_iff] at letter
  refine ⟨letter.1.1, ?_⟩
  rw [UInt8.lt_iff_toNat_lt, UInt8.lt_iff_toNat_lt, not_or, Nat.not_lt, Nat.not_lt]
  exact ⟨letter.1.2, letter.2⟩

theorem character_starts {front : Text} {value : UInt8}
    (started : starts (front ++ [value]) = true) (count : Nat) :
    character renewal ⟨front, count⟩ value = .serving ⟨front ++ [value], count⟩ := by
  obtain ⟨command, either, begins⟩ :
      ∃ command, (command = renewCommand ∨ command = stopCommand) ∧
        front ++ [value] <+: command := by
    rcases starts_iff.mp started with renews | stops
    · exact ⟨_, Or.inl rfl, renews⟩
    · exact ⟨_, Or.inr rfl, stops⟩
  obtain ⟨small, letters⟩ := command_letters either
  have within := begins.length_le
  rw [List.length_append, List.length_singleton] at within
  obtain ⟨other, letter⟩ :=
    letters value (begins.subset (List.mem_append_right _ (List.mem_singleton_self value)))
  have short : ¬ 5 ≤ front.length := by omega
  unfold character
  rw [if_neg other, if_neg (not_or.mpr ⟨short, letter⟩), if_pos started]

theorem scan_starts {pending : Text} (started : starts pending = true) (count : Nat) :
    scan renewal ⟨[], count⟩ pending = .serving ⟨pending, count⟩ := by
  induction pending using List.reverseRecOn with
  | nil => rfl
  | append_singleton front value inductionHypothesis =>
      have before : starts front = true := by
        rw [starts_iff] at started ⊢
        exact started.imp (List.prefix_append front [value]).trans
          (List.prefix_append front [value]).trans
      rw [scan_append, inductionHypothesis before]
      change (character renewal ⟨front, count⟩ value).andThen
        (fun next => scan renewal next []) = _
      rw [character_starts started]
      rfl

/-- A line that renews the session, while that is allowed. -/
theorem scan_renew {count : Nat} (less : count < maximumRenewals) (rest : Text) :
    scan renewal ⟨[], count⟩ ((renewCommand ++ [newline]) ++ rest) =
      (match renewal count with
        | .done => Outcome.serving ⟨[], count + 1⟩
        | .late => .ended (count + 1)
        | .failed => .failed (count + 1)).andThen fun next => scan renewal next rest := by
  rw [List.append_assoc, scan_append, scan_starts (by decide)]
  change (character renewal ⟨renewCommand, count⟩ newline).andThen
    (fun next => scan renewal next rest) = _
  have renews : ¬ (renewCommand ≠ renewCommand ∨ maximumRenewals ≤ count) :=
    not_or.mpr ⟨not_not.mpr rfl, Nat.not_le.mpr less⟩
  have goesOn : renewCommand ≠ stopCommand := by decide
  unfold character line
  rw [if_pos rfl, if_neg goesOn, if_neg renews]

theorem scan_renewals {count : Nat} (few : count ≤ maximumRenewals)
    (renewed : Renewed renewal count) (rest : Text) :
    scan renewal ⟨[], 0⟩ (renewals count ++ rest) = scan renewal ⟨[], count⟩ rest := by
  induction count generalizing rest with
  | zero => rfl
  | succ count inductionHypothesis =>
      have before : Renewed renewal count :=
        fun earlier less => renewed earlier (Nat.lt_succ_of_lt less)
      rw [renewals_succ, List.append_assoc,
        inductionHypothesis (Nat.le_of_succ_le few) before, scan_renew few,
        renewed count (Nat.lt_succ_self count)]
      rfl

theorem scan_stop (count : Nat) (rest : Text) :
    scan renewal ⟨[], count⟩ (stopLine ++ rest) = .ended count := by
  rw [stopLine, List.append_assoc, scan_append, scan_starts (by decide)]
  change (character renewal ⟨stopCommand, count⟩ newline).andThen
    (fun next => scan renewal next rest) = _
  unfold character line
  rw [if_pos rfl, if_pos rfl]
  rfl

theorem scan_late {count : Nat} (few : count ≤ maximumRenewals)
    (unrenewed : Unrenewed renewal .late count) (rest : Text) :
    scan renewal ⟨[], 0⟩ (renewals count ++ rest) = .ended count := by
  obtain ⟨earlier, rfl, renewed, late⟩ := unrenewed
  rw [renewals_succ, List.append_assoc, scan_renewals (Nat.le_of_succ_le few) renewed,
    scan_renew few, late]
  rfl

/-- All that the rest of a stream can do, once the lines to renew are read. -/
theorem reads_of_tells {text : Text} {ending : Ending} {outcome : Outcome}
    (decided : ∀ count, outcome ≠ .failed count)
    (told : TellsStream renewal text ending outcome) :
    (scan renewal ⟨[], 0⟩ text).andThen (settled ending) = outcome := by
  cases outcome with
  | failed count => exact absurd rfl (decided count)
  | serving pipe =>
      obtain ⟨rfl, few, renewed, started, rfl⟩ := told
      rw [scan_renewals few renewed, scan_starts started]
      rfl
  | ended count =>
      obtain ⟨few, ⟨renewed, stops | closes | lapses⟩ | ⟨unrenewed, rest, rfl⟩⟩ := told
      · obtain ⟨rest, rfl⟩ := stops
        rw [scan_renewals few renewed, scan_stop]
        rfl
      · obtain ⟨rfl, same⟩ := closes
        rw [same, ← List.append_nil (renewals count), scan_renewals few renewed]
        rfl
      · obtain ⟨rfl, pending, started, rfl⟩ := lapses
        rw [scan_renewals few renewed, scan_starts started]
        rfl
      · rw [scan_late few unrenewed]
        rfl

end Hosts

/-- All the times at which the host looks at its clock. -/
def times (looks : List Look) : List Nat :=
  looks.flatMap fun look =>
    look.time ::
      match look.found with
      | .bytes chunk => chunk.map Prod.snd
      | _ => []

theorem heard_late {tests : Bool} {deadline : Nat} {chunk : List (UInt8 × Nat)}
    (cut : (heard tests deadline chunk).2 = false) :
    ∃ arrival ∈ chunk, deadline ≤ arrival.2 := by
  induction chunk with
  | nil => cases cut
  | cons arrival rest inductionHypothesis =>
      rw [heard] at cut
      by_cases late : tests ∧ deadline ≤ arrival.2
      · exact ⟨arrival, List.mem_cons_self, late.2⟩
      · rw [if_neg late] at cut
        obtain ⟨other, member, after⟩ := inductionHypothesis cut
        exact ⟨other, List.mem_cons_of_mem _ member, after⟩

/-- The rest of a stream is late only after the deadline. -/
theorem stream_late {tests : Bool} {deadline : Nat} {looks : List Look}
    (late : (stream tests deadline looks).2 = .late) :
    ∃ time ∈ times looks, deadline ≤ time := by
  induction looks with
  | nil => cases late
  | cons look rest inductionHypothesis =>
      obtain ⟨time, found⟩ := look
      rw [times, List.flatMap_cons]
      rw [stream] at late
      by_cases after : deadline ≤ time
      · exact ⟨time, List.mem_append_left _ List.mem_cons_self, after⟩
      · rw [if_neg after] at late
        have later (rested : (stream tests deadline rest).2 = .late) :
            ∃ moment ∈ times rest, deadline ≤ moment := inductionHypothesis rested
        cases found with
        | nothing =>
            obtain ⟨moment, member, passed⟩ := later late
            exact ⟨moment, List.mem_append_right _ member, passed⟩
        | broken => cases late
        | bytes chunk =>
            cases chunk with
            | nil => cases late
            | cons first more =>
                dsimp only at late
                by_cases whole : (heard tests deadline (first :: more)).2 = true
                · rw [if_pos whole] at late
                  obtain ⟨moment, member, passed⟩ := later late
                  exact ⟨moment, List.mem_append_right _ member, passed⟩
                · obtain ⟨arrival, member, passed⟩ :=
                    heard_late (Bool.eq_false_iff.mpr whole)
                  refine ⟨arrival.2, List.mem_append_left _ ?_, passed⟩
                  exact List.mem_cons_of_mem _ (List.mem_map_of_mem member)

/-- What either host makes of its launcher, in whatever pieces and at whatever times it
finds the bytes, and whatever becomes of a renewal. It ends in order, after `count`
lines to renew and no more than 64, exactly when the session was renewed at each of
them, and then comes the line to stop, or the launcher closes the pipe between two
lines, or the deadline passes with nothing read but the start of a command; or when
the last of these renewals came too late. It serves exactly when an open stream may
still go on to one of these. In every other case it fails, with no more renewals than
it was told, and none after one that failed. A stream is late only if some time is. -/
theorem launcher_commands (renewal : Nat → Renewal) (tests : Bool) (deadline : Nat)
    (looks : List Look) :
    let text := (stream tests deadline looks).1
    let ending := (stream tests deadline looks).2
    let outcome := commands renewal tests deadline ⟨[], 0⟩ looks
    (∀ count, outcome = .ended count ↔
      count ≤ maximumRenewals ∧
        ((Renewed renewal count ∧
            ((∃ rest, text = renewals count ++ (stopLine ++ rest)) ∨
              (ending = .closed ∧ text = renewals count) ∨
              (ending = .late ∧
                ∃ pending, starts pending = true ∧ text = renewals count ++ pending))) ∨
          (Unrenewed renewal .late count ∧ ∃ rest, text = renewals count ++ rest))) ∧
      (∀ pipe, outcome = .serving pipe ↔
        ending = .going ∧ pipe.renewals ≤ maximumRenewals ∧
          Renewed renewal pipe.renewals ∧ starts pipe.pending = true ∧
          text = renewals pipe.renewals ++ pipe.pending) ∧
      (∀ count, outcome = .failed count →
        count ≤ maximumRenewals ∧
          (Renewed renewal count ∨ Unrenewed renewal .failed count) ∧
          ∃ rest, text = renewals count ++ rest) ∧
      (ending = .late → ∃ time ∈ times looks, deadline ≤ time) := by
  intro text ending outcome
  have tells : TellsStream renewal text ending outcome := commands_tells looks
  have read : outcome = (scan renewal ⟨[], 0⟩ text).andThen (settled ending) :=
    commands_eq renewal tests deadline looks ⟨[], 0⟩
  have passed : ending = .late → ∃ time ∈ times looks, deadline ≤ time := stream_late
  clear_value text ending outcome
  refine ⟨?_, ?_, ?_, passed⟩
  · intro count
    constructor
    · intro ended
      rw [ended] at tells
      exact tells
    · intro written
      have told : TellsStream renewal text ending (.ended count) := written
      rw [read]
      refine reads_of_tells ?_ told
      intro other same
      cases same
  · intro pipe
    constructor
    · intro serving
      rw [serving] at tells
      exact tells
    · intro written
      have told : TellsStream renewal text ending (.serving pipe) := written
      rw [read]
      refine reads_of_tells ?_ told
      intro other same
      cases same
  · intro count failed
    rw [failed] at tells
    exact tells

example :
    PolicyHost.hostCommands (fun _ => .done) 100 ⟨[], 0⟩
      [⟨10, .bytes ((ascii "renew\nst").map (·, 99))⟩, ⟨20, .nothing⟩, ⟨100, .nothing⟩] =
      .ended 1 := by
  decide

end Omniweft.Launcher
