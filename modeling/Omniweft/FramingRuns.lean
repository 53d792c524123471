import Omniweft.Framing

/-!
# Framing does not depend on the network

The tests that run after each receive look at whatever has arrived. On a prefix of a
stream whose head passes them they all pass, so the head is found whichever way the
stream is cut, and nothing behind it has a say in what it means.
-/

namespace Omniweft.Framing

open Outcome PolicyHost

theorem find_fits {pattern : Text} (some_ : pattern ≠ []) {text : Text} {place : Nat}
    (found : find pattern text = some place) : place + pattern.length ≤ text.length := by
  induction text generalizing place with
  | nil =>
      simp only [find] at found
      split at found
      · rename_i empty
        exact absurd (List.isEmpty_iff.mp empty) some_
      · cases found
  | cons byte rest continues =>
      rw [find] at found
      split at found
      · rename_i here
        cases found
        rw [Nat.zero_add]
        exact (List.isPrefixOf_iff_prefix.mp here).length_le
      · obtain ⟨later, foundLater, same⟩ := Option.map_eq_some_iff.mp found
        have fits := continues foundLater
        rw [List.length_cons]
        omega

/-- More text behind does not move the first place. -/
theorem find_append {pattern : Text} (some_ : pattern ≠ []) {text : Text} {place : Nat}
    (found : find pattern text = some place) (more : Text) :
    find pattern (text ++ more) = some place := by
  induction text generalizing place with
  | nil =>
      have fits := find_fits some_ found
      have positive := List.length_pos_iff.mpr some_
      rw [List.length_nil] at fits
      omega
  | cons byte rest continues =>
      rw [find] at found
      rw [List.cons_append, find]
      split at found
      · rename_i here
        have longer : pattern.isPrefixOf (byte :: (rest ++ more)) = true :=
          List.isPrefixOf_iff_prefix.mpr
            ((List.isPrefixOf_iff_prefix.mp here).trans (List.prefix_append (byte :: rest) more))
        rw [if_pos longer]
        exact found
      · rename_i elsewhere
        obtain ⟨later, foundLater, same⟩ := Option.map_eq_some_iff.mp found
        have fits := find_fits some_ foundLater
        have still : ¬ pattern.isPrefixOf (byte :: (rest ++ more)) = true := by
          intro longer
          apply elsewhere
          rw [List.isPrefixOf_iff_prefix] at longer ⊢
          refine List.prefix_of_prefix_length_le longer
            (List.prefix_append (byte :: rest) more) ?_
          rw [List.length_cons]
          omega
        rw [if_neg still, continues foundLater, Option.map_some, same]

/-- A place that lies within a prefix is found there. -/
theorem find_within {pattern : Text} {text more : Text} {place : Nat}
    (found : find pattern (text ++ more) = some place)
    (inside : place + pattern.length ≤ text.length) (some_ : pattern ≠ []) :
    find pattern text = some place := by
  induction text generalizing place with
  | nil =>
      have positive := List.length_pos_iff.mpr some_
      rw [List.length_nil] at inside
      omega
  | cons byte rest continues =>
      rw [List.cons_append, find] at found
      rw [find]
      split at found
      · rename_i here
        cases found
        have shorter : pattern.isPrefixOf (byte :: rest) = true := by
          rw [List.isPrefixOf_iff_prefix] at here ⊢
          exact List.prefix_of_prefix_length_le here (List.prefix_append (byte :: rest) more)
            (by omega)
        rw [if_pos shorter]
      · rename_i elsewhere
        obtain ⟨later, foundLater, same⟩ := Option.map_eq_some_iff.mp found
        have still : ¬ pattern.isPrefixOf (byte :: rest) = true := by
          intro shorter
          apply elsewhere
          rw [List.isPrefixOf_iff_prefix] at shorter ⊢
          exact shorter.trans (List.prefix_append (byte :: rest) more)
        rw [List.length_cons] at inside
        rw [if_neg still, continues foundLater (by omega), Option.map_some, same]

theorem find_split {pattern : Text} (some_ : pattern ≠ []) {text : Text} {place : Nat}
    (found : find pattern text = some place) :
    ∃ front back, text = front ++ pattern ++ back ∧ front.length = place := by
  induction text generalizing place with
  | nil =>
      have fits := find_fits some_ found
      have positive := List.length_pos_iff.mpr some_
      rw [List.length_nil] at fits
      omega
  | cons byte rest continues =>
      rw [find] at found
      split at found
      · rename_i here
        cases found
        obtain ⟨back, whole⟩ := List.isPrefixOf_iff_prefix.mp here
        exact ⟨[], back, whole.symm, rfl⟩
      · obtain ⟨later, foundLater, same⟩ := Option.map_eq_some_iff.mp found
        obtain ⟨front, back, whole, counted⟩ := continues foundLater
        refine ⟨byte :: front, back, by rw [whole]; rfl, ?_⟩
        rw [List.length_cons, counted, same]

theorem find_there {pattern : Text} (some_ : pattern ≠ []) (front : Text) :
    (find pattern (front ++ pattern)).isSome = true := by
  induction front with
  | nil =>
      obtain ⟨byte, rest, rfl⟩ := List.exists_cons_of_ne_nil some_
      have here : (byte :: rest).isPrefixOf (byte :: rest) = true :=
        List.isPrefixOf_iff_prefix.mpr (List.prefix_refl _)
      rw [List.nil_append, find, if_pos here]
      rfl
  | cons byte rest continues =>
      rw [List.cons_append, find]
      split
      · rfl
      · rw [Option.isSome_map]
        exact continues

theorem crlf_some : crlf ≠ [] := by decide

theorem blankLine_some : blankLine ≠ [] := by decide

theorem legible_append {text more : Text} :
    ∀ {previous : Option UInt8}, legible previous (text ++ more) = true →
      legible previous text = true := by
  induction text with
  | nil => exact fun _ => rfl
  | cons value rest continues =>
      intro previous whole
      rw [List.cons_append, legible, Bool.and_eq_true] at whole
      rw [legible, Bool.and_eq_true]
      refine ⟨?_, continues whole.2⟩
      have here := whole.1
      by_cases feed : (value == 10) = true
      · rw [if_pos feed] at here ⊢
        exact here
      · rw [if_neg feed] at here ⊢
        by_cases carriage : (value == 13) = true
        · rw [if_pos carriage] at here ⊢
          cases rest with
          | nil => rfl
          | cons next others => exact here
        · rw [if_neg carriage] at here ⊢
          exact here

/-- The head of a stream, up to its first blank line, that passes every test. -/
structure Passes (head : Text) : Prop where
  blank : find blankLine head = some (head.length - 4)
  line : ∃ lineEnd, find crlf head = some lineEnd ∧ lineEnd + 2 ≤ maxRequestLineBytes
  legible : legible none head = true

theorem Passes.long {head : Text} (passes : Passes head) : 4 ≤ head.length := by
  have fits := find_fits blankLine_some passes.blank
  have four : blankLine.length = 4 := rfl
  omega

theorem inspect_eq_ok {bytes : Text} :
    inspect bytes = .ok () ↔
      (match find crlf bytes with
        | none => bytes.length ≤ maxRequestLineBytes
        | some lineEnd => lineEnd + 2 ≤ maxRequestLineBytes) ∧
      legible none (bytes.take (match find blankLine bytes with
        | none => bytes.length
        | some boundary => boundary + 4)) = true := by
  unfold inspect
  simp only [bind_eq_ok, rejectIf_eq_ok, Bool.not_eq_false', exists_const]
  cases find crlf bytes <;> cases find blankLine bytes <;> simp

/-- Whatever has arrived of a stream whose head passes. -/
theorem Passes.inspect {head rest got : Text} (passes : Passes head)
    (arrived : got <+: head ++ rest) : inspect got = .ok () := by
  obtain ⟨lineEnd, line, short⟩ := passes.line
  obtain ⟨later, whole⟩ := arrived
  have long := passes.long
  have onStream := find_append blankLine_some passes.blank rest
  rw [← whole] at onStream
  rw [inspect_eq_ok]
  constructor
  · cases found : find crlf got with
    | none =>
        have total := find_append crlf_some line rest
        rw [← whole] at total
        by_contra longer
        have inside : lineEnd + crlf.length ≤ got.length := by
          have two : crlf.length = 2 := rfl
          change ¬ got.length ≤ maxRequestLineBytes at longer
          omega
        rw [find_within total inside crlf_some] at found
        cases found
    | some place =>
        have total := find_append crlf_some line rest
        have same := find_append crlf_some found later
        rw [whole, total] at same
        rw [← Option.some.inj same]
        exact short
  · have four : blankLine.length = 4 := rfl
    by_cases complete : head.length ≤ got.length
    · have found := find_within onStream (by omega) blankLine_some
      have prefix_ : got.take head.length = head := by
        have front := congrArg (List.take head.length) whole
        rw [List.take_left, List.take_append_of_le_length complete] at front
        exact front
      rw [found]
      dsimp only
      rw [Nat.sub_add_cancel long, prefix_]
      exact passes.legible
    · have missing : find blankLine got = none := by
        cases found : find blankLine got with
        | none => rfl
        | some place =>
            have same := find_append blankLine_some found later
            have fits := find_fits blankLine_some found
            rw [onStream] at same
            have equal := Option.some.inj same
            omega
      rw [missing]
      dsimp only
      rw [List.take_length]
      have before : got <+: head :=
        List.prefix_of_prefix_length_le ⟨later, whole⟩ (List.prefix_append head rest) (by omega)
      obtain ⟨remaining, split⟩ := before
      have legible := passes.legible
      rw [← split] at legible
      exact legible_append legible

theorem receive_some {socket : Socket} {capacity : Nat} (more : socket.rest ≠ []) :
    ∃ chunk next, receive socket capacity = .ok (chunk, next) := by
  unfold receive
  rw [if_neg (by simpa using more)]
  exact ⟨_, _, rfl⟩

/-- One round of the loop. -/
theorem receiveHead_round {headerOnly : Bool} {bytes : Text} {socket : Socket}
    (missing : find blankLine bytes = none) {result : Text × Socket} :
    receiveHead headerOnly bytes socket = .ok result ↔
      bytes.length < maxHeaderBytes ∧
        ∃ chunk next, receive socket (if headerOnly then 1 else 2048) = .ok (chunk, next) ∧
          inspect (bytes ++ chunk) = .ok () ∧
          receiveHead headerOnly (bytes ++ chunk) next = .ok result := by
  rw [receiveHead, if_neg (by rw [missing]; exact Bool.false_ne_true)]
  by_cases large : maxHeaderBytes ≤ bytes.length
  · rw [if_pos large]
    constructor
    · intro impossible
      cases impossible
    · intro both
      exact absurd both.1 (not_lt.mpr large)
  · rw [if_neg large]
    split
    · rename_i halt failed
      rw [failed]
      simp
    · rename_i chunk next arrived
      split
      · rename_i halt refused
        rw [arrived]
        constructor
        · intro impossible
          cases impossible
        · intro both
          obtain ⟨_, other, after, same, passed, _⟩ := both
          cases same
          rw [refused] at passed
          cases passed
      · rename_i passed
        rw [arrived]
        constructor
        · intro received
          exact ⟨not_le.mp large, chunk, next, rfl, passed, received⟩
        · intro both
          obtain ⟨_, other, after, same, _, received⟩ := both
          cases same
          exact received

theorem receiveHead_found {headerOnly : Bool} {bytes : Text} {socket : Socket} {place : Nat}
    (found : find blankLine bytes = some place) :
    receiveHead headerOnly bytes socket = .ok (bytes, socket) := by
  rw [receiveHead, if_pos (by rw [found]; rfl)]

theorem capacity_positive (headerOnly : Bool) : 0 < if headerOnly then 1 else 2048 := by
  cases headerOnly <;> decide

/-- What the loop returns has a head, with nothing behind it in header-only mode. -/
theorem receiveHead_sound (headerOnly : Bool) (size : Nat) :
    ∀ {bytes got : Text} {socket next : Socket}, socket.rest.length = size →
      find blankLine bytes = none →
      receiveHead headerOnly bytes socket = .ok (got, next) →
      ∃ head extra, got = head ++ extra ∧ bytes ++ socket.rest = got ++ next.rest ∧
        find blankLine head = some (head.length - 4) ∧ inspect got = .ok () ∧
        (headerOnly = true → extra = []) := by
  induction size using Nat.strong_induction_on with
  | h size continues =>
      intro bytes got socket next sized missing received
      obtain ⟨room, chunk, after, arrived, passed, later⟩ := (receiveHead_round missing).mp received
      obtain ⟨whole, _, within, some_⟩ := receive_eq_ok arrived
      have positive := some_ (capacity_positive headerOnly)
      cases found : find blankLine (bytes ++ chunk) with
      | none =>
          have fewer : after.rest.length < size := by
            rw [← sized, whole, List.length_append]
            omega
          obtain ⟨head, extra, split, total, blank, inspected, exact_⟩ :=
            continues after.rest.length fewer rfl found later
          refine ⟨head, extra, split, ?_, blank, inspected, exact_⟩
          rw [whole, ← List.append_assoc]
          exact total
      | some boundary =>
          rw [receiveHead_found found] at later
          obtain ⟨rfl, rfl⟩ := Prod.mk.inj (Except.ok.inj later)
          have fits := find_fits blankLine_some found
          have four : blankLine.length = 4 := rfl
          have length : ((bytes ++ chunk).take (boundary + 4)).length = boundary + 4 := by
            rw [List.length_take]
            omega
          refine ⟨(bytes ++ chunk).take (boundary + 4), (bytes ++ chunk).drop (boundary + 4),
            (List.take_append_drop _ _).symm, ?_, ?_, passed, ?_⟩
          · rw [whole, List.append_assoc]
          · rw [← List.take_append_drop (boundary + 4) (bytes ++ chunk)] at found
            rw [length, Nat.add_sub_cancel]
            exact find_within found (by omega) blankLine_some
          · intro only
            rw [only] at within
            have late : bytes.length < boundary + 4 := by
              by_contra early
              rw [find_within found (by omega) blankLine_some] at missing
              cases missing
            rw [List.drop_eq_nil_iff, List.length_append]
            change chunk.length ≤ 1 at within
            omega

/-- A stream whose head passes is received up to its head. -/
theorem receiveHead_complete {headerOnly : Bool} {head rest : Text} (passes : Passes head)
    (short : head.length ≤ maxHeaderBytes) (size : Nat) :
    ∀ {bytes : Text} {socket : Socket}, socket.rest.length = size →
      find blankLine bytes = none → bytes ++ socket.rest = head ++ rest →
      ∃ result, receiveHead headerOnly bytes socket = .ok result := by
  induction size using Nat.strong_induction_on with
  | h size continues =>
      intro bytes socket sized missing whole
      have before : bytes.length < head.length := by
        by_contra complete
        have onStream := find_append blankLine_some passes.blank rest
        have long := passes.long
        have four : blankLine.length = 4 := rfl
        rw [← whole] at onStream
        rw [find_within onStream (by omega) blankLine_some] at missing
        cases missing
      have more : socket.rest ≠ [] := by
        intro ended
        rw [ended, List.append_nil] at whole
        have lengths := congrArg List.length whole
        rw [List.length_append] at lengths
        omega
      obtain ⟨chunk, after, arrived⟩ := @receive_some socket (if headerOnly then 1 else 2048) more
      obtain ⟨split, _, _, some_⟩ := receive_eq_ok arrived
      have positive := some_ (capacity_positive headerOnly)
      have total : (bytes ++ chunk) ++ after.rest = head ++ rest := by
        rw [List.append_assoc, ← split, whole]
      have passed := passes.inspect ⟨after.rest, total⟩
      have last : ∃ result, receiveHead headerOnly (bytes ++ chunk) after = .ok result := by
        cases found : find blankLine (bytes ++ chunk) with
        | none =>
            have fewer : after.rest.length < size := by
              rw [← sized, split, List.length_append]
              omega
            exact continues after.rest.length fewer rfl found total
        | some boundary => exact ⟨_, receiveHead_found found⟩
      obtain ⟨result, received⟩ := last
      exact ⟨result, (receiveHead_round missing).mpr
        ⟨by omega, chunk, after, arrived, passed, received⟩⟩

/-- A head ends with its blank line. -/
theorem blank_ends {head : Text} (blank : find blankLine head = some (head.length - 4)) :
    ∃ front, head = front ++ blankLine := by
  obtain ⟨front, back, whole, counted⟩ := find_split blankLine_some blank
  have lengths := congrArg List.length whole
  have four : blankLine.length = 4 := rfl
  rw [List.length_append, List.length_append] at lengths
  have ended : back = [] := List.eq_nil_of_length_eq_zero (by omega)
  rw [ended, List.append_nil] at whole
  exact ⟨front, whole⟩

theorem passes_of_inspect {head extra : Text}
    (blank : find blankLine head = some (head.length - 4))
    (inspected : inspect (head ++ extra) = .ok ()) : Passes head := by
  obtain ⟨front, ends⟩ := blank_ends blank
  have parts : head = (front ++ crlf) ++ crlf := by
    rw [ends, List.append_assoc]
    rfl
  have present : (find crlf head).isSome = true := by
    rw [parts]
    exact find_there crlf_some _
  obtain ⟨lineEnd, line⟩ := Option.isSome_iff_exists.mp present
  obtain ⟨short, legible⟩ := inspect_eq_ok.mp inspected
  rw [find_append crlf_some line extra] at short
  rw [find_append blankLine_some blank extra] at legible
  dsimp only at short legible
  have long : 4 ≤ head.length := by
    have four : blankLine.length = 4 := rfl
    rw [ends, List.length_append]
    omega
  rw [Nat.sub_add_cancel long, List.take_left] at legible
  exact ⟨blank, ⟨lineEnd, line, short⟩, legible⟩

/-- The bytes behind a text that ends with a line end do not reach its header lines. -/
theorem headerLines_append (extra : Text) (left : Nat) :
    ∀ (rest : Text) (count : Nat) (headers : Headers), left = rest.length →
      (2 < left → ∃ front, rest = front ++ crlf) →
      headerLines left (rest ++ extra) count headers = headerLines left rest count headers := by
  induction left using Nat.strong_induction_on with
  | h left continues =>
      intro rest count headers measured ends
      unfold headerLines
      by_cases more : 2 < left
      · rw [if_pos more, if_pos more]
        obtain ⟨front, shape⟩ := ends more
        have present : (find crlf rest).isSome = true := by
          rw [shape]
          exact find_there crlf_some front
        obtain ⟨place, found⟩ := Option.isSome_iff_exists.mp present
        have fits := find_fits crlf_some found
        have two : crlf.length = 2 := rfl
        rw [found, find_append crlf_some found extra]
        cases place with
        | zero => rfl
        | succ last =>
            have line : (rest ++ extra).take (last + 1) = rest.take (last + 1) :=
              List.take_append_of_le_length (by omega)
            have tail : (rest ++ extra).drop (last + 3) = rest.drop (last + 3) ++ extra :=
              List.drop_append_of_le_length (by omega)
            dsimp only
            rw [line, tail]
            refine bind_congr fun _ => bind_congr fun entered => ?_
            refine continues _ (by omega) _ _ _ ?_ ?_
            · rw [List.length_drop]
              omega
            · intro still
              refine ⟨front.drop (last + 3), ?_⟩
              have lengths := congrArg List.length shape
              rw [List.length_append] at lengths
              rw [shape, List.drop_append_of_le_length (by omega)]
      · rw [if_neg more, if_neg more]

theorem headerLine_length {headers entered : Headers} {line : Text}
    (taken : headerLine headers line = .ok entered) : entered.length = headers.length + 1 := by
  unfold headerLine at taken
  split at taken
  · cases taken
  · simp only [bind_eq_ok, pure_eq_ok] at taken
    obtain ⟨_, _, _, _, _, _, same⟩ := taken
    rw [← same]
    simp

/-- No more headers are accepted than the count allows. -/
theorem headerLines_count (left : Nat) :
    ∀ {rest : Text} {count : Nat} {headers result : Headers},
      headerLines left rest count headers = .ok result → headers.length = count →
      count ≤ maxHeaderCount → result.length ≤ maxHeaderCount := by
  induction left using Nat.strong_induction_on with
  | h left continues =>
      intro rest count headers result parsed counted few
      unfold headerLines at parsed
      by_cases more : 2 < left
      · rw [if_pos more] at parsed
        split at parsed
        · cases parsed
          omega
        · cases parsed
          omega
        · rename_i last found
          simp only [bind_eq_ok, rejectIf_eq_ok, decide_eq_false_iff_not, not_lt] at parsed
          obtain ⟨_, room, entered, taken, later⟩ := parsed
          exact continues _ (by omega) later
            (by rw [headerLine_length taken, counted]) room
      · rw [if_neg more] at parsed
        cases parsed
        omega

/-- What follows the head has no say in what it means. -/
theorem parseHead_append {head : Text} (passes : Passes head) (extra : Text) :
    parseHead (head ++ extra) head.length =
      (fun request : Request =>
        { request with initialBody := extra.take request.contentLength }) <$>
          parseHead head head.length := by
  obtain ⟨lineEnd, line, _⟩ := passes.line
  obtain ⟨front, ends⟩ := blank_ends passes.blank
  have fits := find_fits crlf_some line
  have two : crlf.length = 2 := rfl
  have four : blankLine.length = 4 := rfl
  have first : (head ++ extra).take lineEnd = head.take lineEnd :=
    List.take_append_of_le_length (by omega)
  have rest : (head ++ extra).drop (lineEnd + 2) = head.drop (lineEnd + 2) ++ extra :=
    List.drop_append_of_le_length (by omega)
  have lines : headerLines (head.length - (lineEnd + 2)) (head.drop (lineEnd + 2) ++ extra) 0 [] =
      headerLines (head.length - (lineEnd + 2)) (head.drop (lineEnd + 2)) 0 [] := by
    refine headerLines_append extra _ _ _ _ (by rw [List.length_drop]) ?_
    intro more
    refine ⟨(front ++ crlf).drop (lineEnd + 2), ?_⟩
    have parts : head = (front ++ crlf) ++ crlf := by
      rw [ends, List.append_assoc]
      rfl
    have lengths := congrArg List.length parts
    rw [List.length_append] at lengths
    conv_lhs => rw [parts]
    exact List.drop_append_of_le_length (by omega)
  unfold parseHead
  simp only [find_append crlf_some line extra, line, Option.getD_some, first, rest, lines,
    map_bind, map_pure, List.drop_left]

theorem receiveBody_eq_ok (length : Nat) (size : Nat) :
    ∀ {bytes body : Text} {socket : Socket}, socket.rest.length = size →
      bytes.length ≤ length →
      (receiveBody length bytes socket = .ok body ↔
        length ≤ bytes.length + socket.rest.length ∧
          body = (bytes ++ socket.rest).take length) := by
  induction size using Nat.strong_induction_on with
  | h size continues =>
      intro bytes body socket sized within
      rw [receiveBody]
      by_cases short : bytes.length < length
      · rw [if_pos short]
        split
        · rename_i halt failed
          have ended : socket.rest = [] := by
            by_contra more
            obtain ⟨chunk, next, arrived⟩ :=
              @receive_some socket (min 8192 (length - bytes.length)) more
            rw [arrived] at failed
            cases failed
          rw [ended]
          simp
          omega
        · rename_i chunk next arrived
          obtain ⟨whole, _, few, some_⟩ := receive_eq_ok arrived
          have positive := some_ (by omega)
          have fewer : next.rest.length < size := by
            rw [← sized, whole, List.length_append]
            omega
          rw [continues next.rest.length fewer rfl (by rw [List.length_append]; omega), whole,
            List.length_append, List.length_append, List.append_assoc, Nat.add_assoc]
      · rw [if_neg short]
        have full : bytes.length = length := by omega
        constructor
        · intro read
          cases read
          exact ⟨by omega, by rw [← full, List.take_left]⟩
        · intro both
          rw [both.2, ← full, List.take_left]

/-- What a stream means, however it is cut: its head passes and parses, and the body that
it announces is there. -/
def Frames (stream : Text) (framed : Framed) : Prop :=
  ∃ head rest request, stream = head ++ rest ∧ Passes head ∧
    parseHead head head.length = .ok request ∧ request.contentLength ≤ rest.length ∧
    framed = ⟨request.method, request.route, request.headers, request.contentLength,
      rest.take request.contentLength⟩

theorem parseHead_short {bytes : Text} {headEnd : Nat} {request : Request}
    (parsed : parseHead bytes headEnd = .ok request) :
    headEnd ≤ maxHeaderBytes ∧ request.headers.length ≤ maxHeaderCount := by
  unfold parseHead at parsed
  simp only [bind_eq_ok, pure_eq_ok, rejectIf_eq_ok, decide_eq_false_iff_not, not_lt] at parsed
  obtain ⟨_, short, line, _, headers, entered, length, _, _, _, _, _, same⟩ := parsed
  rw [← same]
  exact ⟨short, headerLines_count _ entered rfl (Nat.zero_le _)⟩

/-- The headers are read exactly when the head of the stream passes and parses. -/
theorem readHeaders_sound {headerOnly : Bool} {socket next : Socket} {request : Request}
    (read : readHeaders headerOnly socket = .ok (request, next)) :
    ∃ head extra base, socket.rest = head ++ (extra ++ next.rest) ∧ Passes head ∧
      head.length ≤ maxHeaderBytes ∧ parseHead head head.length = .ok base ∧
      request = { base with initialBody := extra.take base.contentLength } ∧
      (headerOnly = true → extra = []) := by
  unfold readHeaders at read
  simp only [bind_eq_ok, pure_eq_ok] at read
  obtain ⟨⟨got, after⟩, received, parsed_, parsed, same⟩ := read
  obtain ⟨rfl, rfl⟩ := Prod.mk.inj same
  obtain ⟨head, extra, split, whole, blank, inspected, exact_⟩ :=
    receiveHead_sound headerOnly _ rfl rfl received
  subst split
  have passes := passes_of_inspect blank inspected
  have long := passes.long
  rw [find_append blankLine_some blank extra, Option.getD_some, Nat.sub_add_cancel long] at parsed
  have short := (parseHead_short parsed).1
  rw [parseHead_append passes extra] at parsed
  cases base : parseHead head head.length with
  | error halt =>
      rw [base] at parsed
      cases parsed
  | ok result =>
      rw [base] at parsed
      rw [List.nil_append, List.append_assoc] at whole
      exact ⟨head, extra, result, whole, passes, short, base, (Except.ok.inj parsed).symm, exact_⟩

theorem head_unique {head other rest more : Text} (passes : Passes head) (also_ : Passes other)
    (same : head ++ rest = other ++ more) : head = other := by
  have one := find_append blankLine_some passes.blank rest
  have two := find_append blankLine_some also_.blank more
  rw [same, two] at one
  have places := Option.some.inj one
  have long := passes.long
  have longOther := also_.long
  exact (List.append_inj same (by omega)).1

theorem readHeaders_complete {headerOnly : Bool} {head rest : Text} (passes : Passes head)
    {base : Request} (parsed : parseHead head head.length = .ok base) {socket : Socket}
    (whole : socket.rest = head ++ rest) :
    ∃ result, readHeaders headerOnly socket = .ok result := by
  obtain ⟨⟨got, next⟩, received⟩ := @receiveHead_complete headerOnly _ _ passes
    (parseHead_short parsed).1 _ _ socket rfl rfl (by rw [List.nil_append, whole])
  obtain ⟨other, extra, split, total, blank, inspected, _⟩ :=
    receiveHead_sound headerOnly _ rfl rfl received
  subst split
  have also_ := passes_of_inspect blank inspected
  rw [List.nil_append, whole, List.append_assoc] at total
  have same := head_unique passes also_ total
  subst same
  have entire := parseHead_append passes extra
  rw [parsed] at entire
  refine ⟨({ base with initialBody := extra.take base.contentLength }, next), ?_⟩
  unfold readHeaders
  simp only [received, bind_eq_ok, pure_eq_ok]
  refine ⟨_, rfl, _, ?_, rfl⟩
  rw [find_append blankLine_some blank extra, Option.getD_some, Nat.sub_add_cancel passes.long]
  exact entire

theorem take_partial (front back : Text) (count : Nat) :
    (front.take count ++ back).take count = (front ++ back).take count := by
  rw [List.take_append, List.take_append, List.take_take, Nat.min_self, List.length_take]
  by_cases short : front.length ≤ count
  · rw [Nat.min_eq_right short]
  · rw [Nat.min_eq_left (by omega), Nat.sub_self, Nat.sub_eq_zero_of_le (by omega)]

/-- An exchange gives what the stream means, whichever way the network cuts it. -/
theorem exchange_eq_ok {headerOnly : Bool} {socket : Socket} {framed : Framed} :
    exchange headerOnly socket = .ok framed ↔ Frames socket.rest framed := by
  constructor
  · intro exchanged
    unfold exchange at exchanged
    simp only [bind_eq_ok, pure_eq_ok] at exchanged
    obtain ⟨⟨request, next⟩, read, body, bodied, same⟩ := exchanged
    obtain ⟨head, extra, base, whole, passes, short, parsed, made, _⟩ := readHeaders_sound read
    subst made
    have initial : (extra.take base.contentLength).length ≤ base.contentLength := by
      rw [List.length_take]
      exact min_le_left _ _
    dsimp only at bodied same
    obtain ⟨enough, taken⟩ := (receiveBody_eq_ok base.contentLength _ rfl initial).mp bodied
    refine ⟨head, extra ++ next.rest, base, whole, passes, parsed, ?_, ?_⟩
    · rw [List.length_append]
      rw [List.length_take] at enough
      omega
    · rw [← same, taken]
      congr 1
      exact take_partial extra next.rest base.contentLength
  · intro frames
    obtain ⟨head, rest, base, whole, passes, parsed, enough, made⟩ := frames
    obtain ⟨⟨request, next⟩, read⟩ := @readHeaders_complete headerOnly _ _ passes _ parsed
      socket whole
    obtain ⟨other, extra, again, total, also_, _, parsedOther, same, _⟩ := readHeaders_sound read
    rw [whole] at total
    obtain rfl := head_unique passes also_ total
    obtain rfl : base = again := Except.ok.inj (parsed.symm.trans parsedOther)
    have tail : rest = extra ++ next.rest := List.append_cancel_left total
    subst same
    have initial : (extra.take base.contentLength).length ≤ base.contentLength := by
      rw [List.length_take]
      exact min_le_left _ _
    have body : receiveBody base.contentLength (extra.take base.contentLength) next =
        .ok ((extra.take base.contentLength ++ next.rest).take base.contentLength) := by
      rw [receiveBody_eq_ok base.contentLength _ rfl initial]
      refine ⟨?_, rfl⟩
      rw [tail, List.length_append] at enough
      rw [List.length_take]
      omega
    unfold exchange
    simp only [read, bind_eq_ok, pure_eq_ok]
    refine ⟨_, rfl, _, body, ?_⟩
    rw [made, tail]
    congr 1
    exact take_partial extra next.rest base.contentLength

/-- However the network cuts a stream, and in header-only mode too, an exchange is refused
or it gives one and the same request. Headers that are read keep to the limits, and in
header-only mode nothing behind the blank line has been taken from the socket. -/
theorem framing_independent (stream : Text) (headerOnly otherOnly : Bool)
    (network other : Nat → Nat) :
    ((∃ framed, exchange headerOnly ⟨stream, network, 0⟩ = .ok framed ∧
        exchange otherOnly ⟨stream, other, 0⟩ = .ok framed) ∨
      (∃ halt, exchange headerOnly ⟨stream, network, 0⟩ = .error halt) ∧
        ∃ halt, exchange otherOnly ⟨stream, other, 0⟩ = .error halt) ∧
      ∀ request next, readHeaders headerOnly ⟨stream, network, 0⟩ = .ok (request, next) →
        ∃ boundary lineEnd,
          find blankLine stream = some boundary ∧ boundary + 4 ≤ maxHeaderBytes ∧
          find crlf stream = some lineEnd ∧ lineEnd + 2 ≤ maxRequestLineBytes ∧
          request.headers.length ≤ maxHeaderCount ∧
          (headerOnly = true → next.rest = stream.drop (boundary + 4)) := by
  constructor
  · cases one : exchange headerOnly ⟨stream, network, 0⟩ with
    | ok framed =>
        have frames := exchange_eq_ok.mp one
        exact Or.inl ⟨framed, rfl, exchange_eq_ok.mpr frames⟩
    | error halt =>
        refine Or.inr ⟨⟨halt, rfl⟩, ?_⟩
        cases two : exchange otherOnly ⟨stream, other, 0⟩ with
        | error refused => exact ⟨refused, rfl⟩
        | ok framed =>
            have frames : Frames stream framed := exchange_eq_ok.mp two
            have both : exchange headerOnly ⟨stream, network, 0⟩ = .ok framed :=
              exchange_eq_ok.mpr frames
            rw [one] at both
            cases both
  · intro request next read
    obtain ⟨head, extra, base, whole, passes, short, parsed, made, exact_⟩ :=
      readHeaders_sound read
    obtain ⟨lineEnd, line, lineShort⟩ := passes.line
    change stream = head ++ (extra ++ next.rest) at whole
    have long := passes.long
    refine ⟨head.length - 4, lineEnd, ?_, by omega, ?_, lineShort, ?_, ?_⟩
    · rw [whole]
      exact find_append blankLine_some passes.blank _
    · rw [whole]
      exact find_append crlf_some line _
    · rw [made]
      exact (parseHead_short parsed).2
    · intro only
      rw [whole, exact_ only, List.nil_append, Nat.sub_add_cancel long, List.drop_left]

def capabilities : Text :=
  ascii "GET /v0/capabilities HTTP/1.1\x0d\x0aHost: 127.0.0.1:80\x0d\x0a\x0d\x0arest"

def capabilitiesFramed : Framed :=
  ⟨ascii "GET", ascii "/v0/capabilities", [(ascii "host", ascii "127.0.0.1:80")], 0, []⟩

theorem framing_independent_get :
    exchange true ⟨capabilities, fun _ => 0, 0⟩ = .ok capabilitiesFramed ∧
      exchange false ⟨capabilities, fun call => 7 * call, 0⟩ = .ok capabilitiesFramed := by
  have single : exchange true ⟨capabilities, fun _ => 0, 0⟩ = .ok capabilitiesFramed := by
    decide +kernel
  refine ⟨single, ?_⟩
  rcases (framing_independent capabilities true false (fun _ => 0) fun call => 7 * call).1 with
    ⟨framed, one, two⟩ | ⟨⟨halt, refused⟩, _⟩
  · rw [single] at one
    rw [two, ← one]
  · rw [single] at refused
    cases refused

end Omniweft.Framing
