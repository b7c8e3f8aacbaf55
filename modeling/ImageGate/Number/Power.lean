/-! Powers of numbers. Where a library of algebra is at hand, `2 ^ n` would be read as a power in its
monoids; the powers of this project are the built-in ones in every module. -/
namespace ImageGate.Number

@[default_instance 20000]
instance (priority := high) builtinPower {α : Type} [NatPow α] : Pow α Nat := instPowNat

end ImageGate.Number
