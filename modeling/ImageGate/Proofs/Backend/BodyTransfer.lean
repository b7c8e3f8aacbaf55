import ImageGate.Backend.Body
import ImageGate.Backend.Reply

/-! The way of a body to the caller. Its source answers with chunks, waits, failures and an end, and
what is handed on are the answers up to the first failure or end. The failure is among them, so a
body that was cut off is not taken for a whole one. -/
namespace ImageGate
set_option autoImplicit false

/-! ## Bodies of answers -/

namespace Poll
variable {ε : Type}

def chunk? : Poll ε → Option (List UInt8)
  | chunk data => some data
  | _ => none

def isFailure : Poll ε → Bool
  | failure _ => true
  | _ => false

/-- Nothing counts after such an answer. -/
def isLast : Poll ε → Bool
  | failure _ | finished => true
  | chunk _ | pending => false

def upToLast : List (Poll ε) → List (Poll ε)
  | [] => []
  | answer :: rest => if answer.isLast then [answer] else answer :: upToLast rest

end Poll

/-- The body that a source of these answers makes. -/
def ReplyBody.ofAnswers {ε : Type} (answers : List (Poll ε)) : ReplyBody where
  chunks := (Poll.upToLast answers).filterMap Poll.chunk?
  breaksOff := (Poll.upToLast answers).any Poll.isFailure

/-- What so many polls of a source with these answers hand on. -/
def CountedBody.handedOn {ε : Type} (n : Nat) (answers : List (Poll ε)) : List (Poll ε) :=
  (polls nextOfList n { source := answers }).map Prod.fst

/-! ## What is handed on -/

namespace CountedBody
variable {ε : Type}

theorem polls_of_isOver {σ : Type} (next : σ → Poll ε × σ) {body : CountedBody σ}
    (h : body.isOver = true) (n : Nat) :
    (polls next n body).map Prod.fst = List.replicate n .finished := by
  induction n with
  | zero => rfl
  | succ n ih =>
    have hpoll : body.poll next = (.finished, body) := by rw [poll, if_pos h]
    rw [polls, hpoll, List.map_cons, ih, List.replicate_succ]

theorem poll_of_isLast {answer : Poll ε} (h : answer.isLast = true) (rest : List (Poll ε))
    (count : UInt64) :
    poll nextOfList { source := answer :: rest, count }
      = (answer, { source := rest, count, isOver := true }) := by
  cases answer with
  | chunk | pending => cases h
  | failure | finished => rfl

theorem poll_of_not_isLast {answer : Poll ε} (h : answer.isLast = false) (rest : List (Poll ε))
    (count : UInt64) :
    ∃ later, poll nextOfList { source := answer :: rest, count }
      = (answer, { source := rest, count := later }) := by
  cases answer with
  | chunk | pending => exact ⟨_, rfl⟩
  | failure | finished => cases h

theorem map_fst_polls (answers : List (Poll ε)) (n : Nat) (count : UInt64) :
    (polls nextOfList n { source := answers, count }).map Prod.fst
      = (Poll.upToLast answers).take n
        ++ List.replicate (n - (Poll.upToLast answers).length) .finished := by
  -- Every chunk raises the count, so the induction is for all counts at once.
  induction answers generalizing n count with
  | nil =>
    cases n with
    | zero => rfl
    | succ n => exact congrArg (List.cons Poll.finished) (polls_of_isOver nextOfList rfl n)
  | cons answer rest ih =>
    cases n with
    | zero => simp [polls]
    | succ n =>
      rw [polls, List.map_cons, Poll.upToLast]
      cases hlast : answer.isLast with
      | true =>
        rw [poll_of_isLast hlast, polls_of_isOver nextOfList rfl, if_pos rfl]
        simp
      | false =>
        obtain ⟨later, hpoll⟩ := poll_of_not_isLast hlast rest count
        rw [hpoll, ih, if_neg Bool.false_ne_true]
        simp

theorem length_upToLast_le (answers : List (Poll ε)) :
    (Poll.upToLast answers).length ≤ answers.length := by
  induction answers with
  | nil => exact Nat.le_refl 0
  | cons answer rest ih =>
    rw [Poll.upToLast]
    split
    · exact Nat.succ_le_succ (Nat.zero_le _)
    · exact Nat.succ_le_succ ih

theorem handedOn_eq {n : Nat} {answers : List (Poll ε)} (h : answers.length ≤ n) :
    handedOn n answers = Poll.upToLast answers
      ++ List.replicate (n - (Poll.upToLast answers).length) .finished := by
  rw [handedOn, map_fst_polls,
    List.take_of_length_le (Nat.le_trans (length_upToLast_le answers) h)]

/-- Polled to its end, a source hands on the chunks of the body that it makes. -/
theorem filterMap_chunk?_handedOn {n : Nat} {answers : List (Poll ε)} (h : answers.length ≤ n) :
    (handedOn n answers).filterMap Poll.chunk? = (ReplyBody.ofAnswers answers).chunks := by
  rw [handedOn_eq h, List.filterMap_append, List.filterMap_replicate_of_none rfl, List.append_nil]
  rfl

theorem any_isFailure_handedOn {n : Nat} {answers : List (Poll ε)} (h : answers.length ≤ n) :
    (handedOn n answers).any Poll.isFailure = (ReplyBody.ofAnswers answers).breaksOff := by
  rw [handedOn_eq h, List.any_append, List.any_replicate]
  simp [Poll.isFailure, ReplyBody.ofAnswers]

end CountedBody

end ImageGate
