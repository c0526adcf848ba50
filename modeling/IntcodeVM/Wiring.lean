import IntcodeVM.Channel

/-!
How a machine reaches its ports. The state of the ports, and of whatever else answers through them,
is a value of its own; a wiring says what the machine's four port operations do to it. An onlooker who
is told of each output may be unable to tell it; without one, nothing is in the way.
-/

namespace IntcodeVM

structure Wiring (σ : Type) where
  pull : σ → Pulled Int × σ
  push : Int → σ → Option Cause × σ
  closeInput : σ → σ
  closeOutput : σ → σ
  tells : Int → Bool := fun _ => true

end IntcodeVM
