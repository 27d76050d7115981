namespace Evidence.Exponential

def high : Float := 6.93147180369123816490e-01

def low : Float := 1.90821492927058770002e-10

def logOfTwo : Float := 0.6931471805599453

def even (t : Float) : Float :=
  t * (1.66666666666666019037e-01 + t * (-2.77777777770155933842e-03 +
    t * (6.61375632143793436117e-05 + t * (-1.65339022054652515390e-06 +
      t * 4.13813679705723846039e-08))))

def power (k : Int) : Float := Float.ofBits (UInt64.ofNat ((k + 1023).toNat <<< 52))

/-- Scales by `2 ^ k`, in two steps where one power would not be normal. -/
def scale (y : Float) (k : Int) : Float :=
  if k = 1024 then y * 2 * power 1023
  else if -1021 ≤ k then y * power k
  else y * power (k + 1000) * power (-1000)

def multiple (x : Float) : Int :=
  (x * 1.44269504088896338700e+00 + (if x < 0 then -0.5 else 0.5)).toInt64.toInt

def near (upper lower : Float) (k : Int) : Float :=
  let x := upper - lower
  let c := x - even (x * x)
  scale (1 - ((lower - (x * c) / (2 - c)) - upper)) k

def sizeWord (x : Float) : Nat := (x.abs.toBits >>> 32).toNat

/-- The argument is brought near zero by whole multiples of the logarithm of two, and a rational
approximation is taken there. Every step rounds, so the steps fix the last digit of the result. -/
def exp (x : Float) : Float :=
  let size := sizeWord x
  if x.isNaN then x
  else if 709.782712893383973096 < x then 1 / 0
  else if x < -745.133219101941108420 then 0
  else if 0x3FF0A2B2 ≤ size then
    let k := multiple x
    near (x - Float.ofInt k * high) (Float.ofInt k * low) k
  else if 0x3FD62E42 < size then
    if x == 1 then 2.718281828459045
    else if x < 0 then near (x + high) (-low) (-1)
    else near (x - high) low 1
  else if size < 0x3E300000 then 1 + x
  else
    let c := x - even (x * x)
    1 - ((x * c) / (c - 2) - x)

end Evidence.Exponential
