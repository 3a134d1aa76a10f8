/-!
# The cosine transform of a block

A block is eight rows of eight samples. The transform runs over the rows and then over the columns, in
whole numbers scaled by powers of two; shifts to the right round downwards.
-/

namespace FrameStream.Image.Jpeg

structure Eight (α : Type) where
  a0 : α
  a1 : α
  a2 : α
  a3 : α
  a4 : α
  a5 : α
  a6 : α
  a7 : α

namespace Eight

/-- The values for the places 0 to 7. -/
def ofFn {α : Type} (f : Nat → α) : Eight α := ⟨f 0, f 1, f 2, f 3, f 4, f 5, f 6, f 7⟩

def map {α β : Type} (f : α → β) (x : Eight α) : Eight β :=
  ⟨f x.a0, f x.a1, f x.a2, f x.a3, f x.a4, f x.a5, f x.a6, f x.a7⟩

def toList {α : Type} (x : Eight α) : List α := [x.a0, x.a1, x.a2, x.a3, x.a4, x.a5, x.a6, x.a7]

def transpose {α : Type} (x : Eight (Eight α)) : Eight (Eight α) :=
  ⟨x.map (·.a0), x.map (·.a1), x.map (·.a2), x.map (·.a3), x.map (·.a4), x.map (·.a5), x.map (·.a6),
    x.map (·.a7)⟩

end Eight

/-- What differs between the pass over rows and the pass over columns. -/
structure Pass where
  /-- The outermost sums, from `t10 + t11` and `t10 - t11`. -/
  outer : Int → Int
  /-- What is taken off the first sum before. -/
  level : Int
  /-- The half added before the last shift of the even part. -/
  half : Int
  shift : Nat

/-- The pass over the rows keeps two bits more and moves the samples around zero. -/
def rowPass : Pass := { outer := fun x => x * 4, level := 1024, half := 1024, shift := 11 }

/-- The pass over the columns takes the two bits away. -/
def columnPass : Pass := { outer := fun x => (x + 2) >>> (2 : Nat), level := 0, half := 16384, shift := 15 }

def Pass.run (p : Pass) (a : Eight Int) : Eight Int :=
  let s0 := a.a0 + a.a7
  let s1 := a.a1 + a.a6
  let s2 := a.a2 + a.a5
  let s3 := a.a3 + a.a4
  let d0 := a.a0 - a.a7
  let d1 := a.a1 - a.a6
  let d2 := a.a2 - a.a5
  let d3 := a.a3 - a.a4
  let t10 := s0 + s3
  let t12 := s0 - s3
  let t11 := s1 + s2
  let t13 := s1 - s2
  let e := (t12 + t13) * 4433 + p.half
  let z := (d0 + d1 + d2 + d3) * 9633 + 1024
  let u := z - (d0 + d2) * 3196
  let v := z - (d1 + d3) * 16069
  let y := -(d0 + d3) * 7373
  let w := -(d1 + d2) * 20995
  { a0 := p.outer (t10 + t11 - p.level)
    a1 := (d0 * 12299 + y + u) >>> p.shift
    a2 := (e + t12 * 6270) >>> p.shift
    a3 := (d1 * 25172 + w + v) >>> p.shift
    a4 := p.outer (t10 - t11)
    a5 := (d2 * 16819 + w + u) >>> p.shift
    a6 := (e - t13 * 15137) >>> p.shift
    a7 := (d3 * 2446 + y + v) >>> p.shift }

/-- The coefficients of a block of samples, scaled by eight. -/
def transform (block : Eight (Eight Int)) : Eight (Eight Int) :=
  ((block.map rowPass.run).transpose.map columnPass.run).transpose

/-- The nearest whole number to `c / q`, a half away from zero. -/
def roundAway (c : Int) (q : Nat) : Int :=
  let n : Nat := (2 * c.natAbs + q) / (2 * q)
  if c < 0 then -n else n

/-- A coefficient without its scale, in steps of the quantizer. -/
def quantize (c : Int) (q : Nat) : Int := roundAway (c.tdiv 8) q

end FrameStream.Image.Jpeg
