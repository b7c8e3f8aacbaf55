import ImageGate.Proofs.Backend.BodyTransfer

/-! A counted body in front of any source. Poll by poll it hands on what the source answers, up to the
first failure or end; from then on it answers the end and leaves the source alone, whatever the source
would still have to say. Its count is the number of bytes handed on, in a word of 64 bits. -/
namespace ImageGate
set_option autoImplicit false

/-! ## Bytes of answers -/

namespace Poll
variable {ε : Type}

def size (answer : Poll ε) : Nat := (answer.chunk?.getD []).length

/-- The bytes of the chunks among these answers. -/
def totalSize : List (Poll ε) → Nat
  | [] => 0
  | answer :: rest => answer.size + totalSize rest

theorem size_of_chunk?_eq_none {answer : Poll ε} (h : answer.chunk? = none) : answer.size = 0 := by
  rw [size, h]
  rfl

theorem totalSize_concat (answers : List (Poll ε)) (answer : Poll ε) :
    totalSize (answers ++ [answer]) = totalSize answers + answer.size := by
  induction answers with
  | nil => exact Nat.add_comm _ _
  | cons first rest ih => rw [List.cons_append, totalSize, ih, totalSize, Nat.add_assoc]

end Poll

/-! ## Sources -/

namespace Source
variable {σ ε : Type}

/-- What the source has become after so many answers. -/
def after (next : σ → Poll ε × σ) : Nat → σ → σ
  | 0, source => source
  | n + 1, source => (next (after next n source)).2

/-- The answer number `n`, counted from zero. -/
def answer (next : σ → Poll ε × σ) (source : σ) (n : Nat) : Poll ε := (next (after next n source)).1

/-- No earlier answer was a failure or an end. -/
def IsOpen (next : σ → Poll ε × σ) (source : σ) (n : Nat) : Prop :=
  ∀ k < n, (answer next source k).isLast = false

variable {next : σ → Poll ε × σ} {source : σ} {n : Nat}

theorem isOpen_succ_iff :
    IsOpen next source (n + 1) ↔ IsOpen next source n ∧ (answer next source n).isLast = false := by
  constructor
  · intro h
    exact ⟨fun k hk => h k (Nat.lt_succ_of_lt hk), h n (Nat.lt_succ_self n)⟩
  · rintro ⟨hopen, hlast⟩ k hk
    rcases Nat.lt_succ_iff_lt_or_eq.1 hk with hlt | rfl
    · exact hopen k hlt
    · exact hlast

end Source

/-! ## One poll -/

namespace CountedBody
variable {σ ε : Type}

theorem poll_of_isOver {body : CountedBody σ} (h : body.isOver = true) (next : σ → Poll ε × σ) :
    body.poll next = (.finished, body) := by
  rw [poll, if_pos h]

/-- A body that is not over asks its source once, adds the bytes of the answer and notes whether it
was the last. -/
theorem poll_of_not_isOver {body : CountedBody σ} (h : body.isOver = false)
    (next : σ → Poll ε × σ) :
    body.poll next = ((next body.source).1,
      { source := (next body.source).2
        count := body.count + UInt64.ofNat (next body.source).1.size
        isOver := (next body.source).1.isLast }) := by
  obtain ⟨source, count, isOver⟩ := body
  cases h
  rw [poll, if_neg Bool.false_ne_true]
  obtain ⟨answer, later⟩ := next source
  cases answer <;> simp [Poll.size, Poll.chunk?, Poll.isLast]

theorem count_poll (next : σ → Poll ε × σ) (body : CountedBody σ) :
    (body.poll next).2.count = body.count + UInt64.ofNat (body.poll next).1.size := by
  cases hover : body.isOver with
  | true =>
    rw [poll_of_isOver hover]
    exact (UInt64.add_zero _).symm
  | false => rw [poll_of_not_isOver hover]

/-! ## Many polls -/

/-- The body after so many polls. -/
def after (next : σ → Poll ε × σ) : Nat → CountedBody σ → CountedBody σ
  | 0, body => body
  | n + 1, body => ((after next n body).poll next).2

/-- The answer to the poll number `n`, counted from zero. -/
def answer (next : σ → Poll ε × σ) (body : CountedBody σ) (n : Nat) : Poll ε :=
  ((after next n body).poll next).1

theorem after_succ_eq (next : σ → Poll ε × σ) (n : Nat) (body : CountedBody σ) :
    after next (n + 1) body = after next n (body.poll next).2 := by
  induction n with
  | zero => rfl
  | succ n ih => rw [after, ih, ← after]

/-- What a run of polls records is the answer and the count of each single poll. -/
theorem polls_eq_map (next : σ → Poll ε × σ) (n : Nat) (body : CountedBody σ) :
    polls next n body = (List.range n).map fun k =>
      (answer next body k, (after next (k + 1) body).count.toNat) := by
  induction n generalizing body with
  | zero => rfl
  | succ n ih =>
    have hfirst : polls next (n + 1) body = (answer next body 0, (after next 1 body).count.toNat)
        :: polls next n (body.poll next).2 := rfl
    rw [hfirst, ih, List.range_succ_eq_map, List.map_cons, List.map_map]
    refine congrArg (List.cons _) (List.map_congr_left fun k _ => ?_)
    simp only [Function.comp_apply, Nat.succ_eq_add_one, answer, after_succ_eq]

theorem map_answer_eq (next : σ → Poll ε × σ) (n : Nat) (body : CountedBody σ) :
    (polls next n body).map Prod.fst = (List.range n).map (answer next body) := by
  rw [polls_eq_map, List.map_map]
  rfl

/-- The count goes on from where it stood, and starts again at zero past the largest word. -/
theorem count_after (next : σ → Poll ε × σ) (n : Nat) (body : CountedBody σ) :
    (after next n body).count
      = body.count + UInt64.ofNat (Poll.totalSize ((polls next n body).map Prod.fst)) := by
  induction n with
  | zero => exact (UInt64.add_zero _).symm
  | succ n ih =>
    rw [map_answer_eq] at ih
    rw [map_answer_eq, List.range_succ, List.map_append, List.map_singleton, Poll.totalSize_concat,
      after, count_poll, ih, UInt64.ofNat_add, UInt64.add_assoc]
    rfl

/-! ## Along the source -/

/-- Where a body stands after `n` polls: before the last answer of its source it has asked for each
of them, and behind it it is over. -/
structure Follows (next : σ → Poll ε × σ) (source : σ) (n : Nat) (body : CountedBody σ) : Prop where
  ongoing : body.isOver = false →
    Source.IsOpen next source n ∧ body.source = Source.after next n source
  finished : body.isOver = true → ¬ Source.IsOpen next source n

variable {next : σ → Poll ε × σ} {source : σ} {n : Nat} {body : CountedBody σ}

theorem Follows.poll (h : Follows next source n body) :
    Follows next source (n + 1) (body.poll next).2 := by
  cases hover : body.isOver with
  | true =>
    rw [poll_of_isOver hover]
    constructor
    · intro hstill
      rw [hover] at hstill
      cases hstill
    · intro _ hlater
      exact h.finished hover (Source.isOpen_succ_iff.1 hlater).1
  | false =>
    obtain ⟨hopen, hsource⟩ := h.ongoing hover
    have hanswer : (next body.source).1 = Source.answer next source n := by
      rw [hsource, Source.answer]
    rw [poll_of_not_isOver hover]
    constructor
    · intro hlast
      rw [hanswer] at hlast
      exact ⟨Source.isOpen_succ_iff.2 ⟨hopen, hlast⟩, by rw [hsource, Source.after]⟩
    · intro hlast hlater
      rw [hanswer, (Source.isOpen_succ_iff.1 hlater).2] at hlast
      cases hlast

theorem follows_after (next : σ → Poll ε × σ) (source : σ) (n : Nat) :
    Follows next source n (after next n { source }) := by
  induction n with
  | zero => exact ⟨fun _ => ⟨fun k hk => absurd hk (Nat.not_lt_zero k), rfl⟩, nofun⟩
  | succ n ih => exact ih.poll

theorem Follows.isOver_eq_false (h : Follows next source n body)
    (hopen : Source.IsOpen next source n) : body.isOver = false := by
  cases hover : body.isOver with
  | true => exact absurd hopen (h.finished hover)
  | false => rfl

theorem Follows.isOver_eq_true (h : Follows next source n body)
    (hclosed : ¬ Source.IsOpen next source n) : body.isOver = true := by
  cases hover : body.isOver with
  | true => rfl
  | false => exact absurd (h.ongoing hover).1 hclosed

/-! ## What a caller sees -/

/-- How a new body in front of a source behaves over all polls. -/
structure Transparent (next : σ → Poll ε × σ) (source : σ) : Prop where
  /-- Up to and including the first failure or end, each poll asks the source once and hands on its
  answer. -/
  faithful : ∀ n, Source.IsOpen next source n →
    answer next { source } n = Source.answer next source n ∧
      (after next n { source }).source = Source.after next n source ∧
      (after next (n + 1) { source }).source = Source.after next (n + 1) source
  /-- From then on each poll answers the end and changes nothing. The source is not asked, for the
  same would come of any other. -/
  ended : ∀ n, ¬ Source.IsOpen next source n →
    answer next { source } n = .finished ∧
      ∀ other : σ → Poll ε × σ,
        (after next n { source }).poll other = (.finished, after next n { source })
  /-- The count is that of the bytes handed on, in 64 bits. -/
  counted : ∀ n, (after next n { source }).count.toNat
    = Poll.totalSize ((List.range n).map (answer next { source })) % 2 ^ 64
  exactCount : ∀ n, Poll.totalSize ((List.range n).map (answer next { source })) < 2 ^ 64 →
    (after next n { source }).count.toNat
      = Poll.totalSize ((List.range n).map (answer next { source }))
  /-- Only chunks change it. -/
  still : ∀ n, (answer next { source } n).chunk? = none →
    (after next (n + 1) { source }).count = (after next n { source }).count
  /-- These are the answers and the counts that a run of polls records. -/
  recorded : ∀ n, polls next n { source } = (List.range n).map fun k =>
    (answer next { source } k, (after next (k + 1) { source }).count.toNat)

theorem toNat_count_after (next : σ → Poll ε × σ) (source : σ) (n : Nat) :
    (after next n { source }).count.toNat
      = Poll.totalSize ((List.range n).map (answer next { source })) % 2 ^ 64 := by
  rw [count_after, map_answer_eq, UInt64.zero_add, UInt64.toNat_ofNat']

/-- Whatever a source answers and however often it is polled through a counted body. -/
theorem transparent (next : σ → Poll ε × σ) (source : σ) : Transparent next source where
  faithful n hopen := by
    have hfollows := follows_after next source n
    have hover := hfollows.isOver_eq_false hopen
    have hsource := (hfollows.ongoing hover).2
    have hpoll := poll_of_not_isOver hover next
    refine ⟨?_, hsource, ?_⟩
    · rw [answer, hpoll, Source.answer, hsource]
    · rw [after, hpoll, Source.after, hsource]
  ended n hclosed := by
    have hover := (follows_after next source n).isOver_eq_true hclosed
    exact ⟨congrArg Prod.fst (poll_of_isOver hover next), poll_of_isOver hover⟩
  counted := toNat_count_after next source
  exactCount n hfits := by rw [toNat_count_after, Nat.mod_eq_of_lt hfits]
  still n hchunk := by
    rw [answer] at hchunk
    rw [after, count_poll, Poll.size_of_chunk?_eq_none hchunk]
    exact UInt64.add_zero _
  recorded n := polls_eq_map next n { source }

/-- A source that goes on after its failure is not asked again. -/
example : polls nextOfList 5 { source := [.chunk [1, 2], .pending, .failure "reset", .chunk [3]] }
    = [(.chunk [1, 2], 2), (.pending, 2), (.failure "reset", 2), (.finished, 2), (.finished, 2)] := by
  decide

end CountedBody

end ImageGate
