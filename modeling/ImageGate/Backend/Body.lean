/-! Bodies that arrive in chunks. A counted body hands on what its source gives, counts the bytes,
and ends for good at the first failure or end. -/
namespace ImageGate
set_option autoImplicit false

/-- What a source gives when it is asked for more. -/
inductive Poll (ε : Type) where
  | chunk (data : List UInt8)
  | failure (reason : ε)
  | finished
  | pending
  deriving DecidableEq, Repr

/-- A source in state `σ` that has handed on `count` bytes, counted in a word of 64 bits. -/
structure CountedBody (σ : Type) where
  source : σ
  count : UInt64 := 0
  isOver : Bool := false
  deriving Repr

namespace CountedBody
variable {σ ε : Type}

/-- Asks for more; `next` is how the source answers. -/
def poll (next : σ → Poll ε × σ) (body : CountedBody σ) : Poll ε × CountedBody σ :=
  if body.isOver then (.finished, body)
  else
    match next body.source with
    | (.chunk data, source) =>
      (.chunk data, { body with source, count := body.count + UInt64.ofNat data.length })
    | (.failure reason, source) => (.failure reason, { body with source, isOver := true })
    | (.finished, source) => (.finished, { body with source, isOver := true })
    | (.pending, source) => (.pending, { body with source })

/-- The answers to so many polls, each with the count after it. -/
def polls (next : σ → Poll ε × σ) : Nat → CountedBody σ → List (Poll ε × Nat)
  | 0, _ => []
  | n + 1, body =>
    let (answer, body) := body.poll next
    (answer, body.count.toNat) :: polls next n body

end CountedBody

/-- A source that is a list of answers gives them in order and then ends. -/
def nextOfList {ε : Type} : List (Poll ε) → Poll ε × List (Poll ε)
  | [] => (.finished, [])
  | p :: rest => (p, rest)

end ImageGate
