import IpcBench.Words

/-!
The command-line arguments of a benchmark and the sizes that the communicate
functions compute from them.
-/

namespace IpcBench

open Words

/-- `struct Arguments`: three C ints. The defaults are those of `parse_arguments`. -/
structure Arguments where
  size : Int := 4096
  count : Int := 1000
  rate : Int := 100
deriving DecidableEq, Repr

namespace Arguments

def reqSize (args : Arguments) : Nat :=
  sizeT args.size

/-- `reqSize * args->rate`, for the buffers and for the window. -/
def bufferSize (args : Arguments) : Nat :=
  sizeT (args.reqSize * sizeT args.rate)

def maxOutstandingBytes (args : Arguments) : Nat :=
  sizeT (args.reqSize * sizeT args.rate)

def maxBytes (args : Arguments) : Nat :=
  sizeT (args.reqSize * sizeT args.count)

def maxOutstandingReqs (args : Arguments) : Nat :=
  sizeT args.rate

end Arguments

/-- Arguments that the options of a benchmark give when each is a positive int. -/
structure Config where
  size : Nat
  count : Nat
  rate : Nat
  size_pos : 0 < size
  count_pos : 0 < count
  rate_pos : 0 < rate
  size_int : size < 2147483648
  count_int : count < 2147483648
  rate_int : rate < 2147483648

namespace Config

def arguments (config : Config) : Arguments where
  size := config.size
  count := config.count
  rate := config.rate

def window (config : Config) : Nat :=
  config.size * config.rate

def total (config : Config) : Nat :=
  config.size * config.count

variable (config : Config)

theorem product_lt {left right : Nat} (leftInt : left < 2147483648)
    (rightInt : right < 2147483648) : left * right < 4611686018427387904 := by
  have bound : left * right ≤ 2147483647 * 2147483647 :=
    Nat.mul_le_mul (by omega) (by omega)
  omega

theorem window_pos : 0 < config.window :=
  Nat.mul_pos config.size_pos config.rate_pos

theorem window_lt : config.window < 4611686018427387904 :=
  product_lt config.size_int config.rate_int

theorem total_pos : 0 < config.total :=
  Nat.mul_pos config.size_pos config.count_pos

theorem total_lt : config.total < 4611686018427387904 :=
  product_lt config.size_int config.count_int

@[simp] theorem reqSize_eq : config.arguments.reqSize = config.size := by
  have := config.size_int
  exact sizeT_natCast (by omega)

@[simp] theorem maxOutstandingReqs_eq : config.arguments.maxOutstandingReqs = config.rate := by
  have := config.rate_int
  exact sizeT_natCast (by omega)

theorem sizeT_product {right : Nat} (rightInt : right < 2147483648) :
    sizeT (config.arguments.reqSize * sizeT (right : Int)) = config.size * right := by
  have bound := product_lt config.size_int rightInt
  have rightSize : sizeT (right : Int) = right := sizeT_natCast (by omega)
  rw [reqSize_eq, rightSize, ← Int.natCast_mul]
  exact sizeT_natCast (by omega)

@[simp] theorem bufferSize_eq : config.arguments.bufferSize = config.window :=
  config.sizeT_product config.rate_int

@[simp] theorem maxOutstandingBytes_eq : config.arguments.maxOutstandingBytes = config.window :=
  config.sizeT_product config.rate_int

@[simp] theorem maxBytes_eq : config.arguments.maxBytes = config.total :=
  config.sizeT_product config.count_int

@[simp] theorem ssizeT_window : ssizeT config.window = config.window := by
  have := config.window_lt
  exact ssizeT_eq (by omega) (by omega)

@[simp] theorem ssizeT_total : ssizeT config.total = config.total := by
  have := config.total_lt
  exact ssizeT_eq (by omega) (by omega)

def twoBytes : Config where
  size := 2
  count := 1
  rate := 1
  size_pos := by decide
  count_pos := by decide
  rate_pos := by decide
  size_int := by decide
  count_int := by decide
  rate_int := by decide

def halfWindow : Config where
  size := 1
  count := 1
  rate := 2
  size_pos := by decide
  count_pos := by decide
  rate_pos := by decide
  size_int := by decide
  count_int := by decide
  rate_int := by decide

def twoWindows : Config where
  size := 1
  count := 3
  rate := 2
  size_pos := by decide
  count_pos := by decide
  rate_pos := by decide
  size_int := by decide
  count_int := by decide
  rate_int := by decide

end Config

end IpcBench
