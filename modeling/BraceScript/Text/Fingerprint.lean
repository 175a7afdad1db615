/-!
# Fingerprints of characters

The fingerprint of some characters is the number that they write in a fixed base, on 64 bits. Equal
characters have equal fingerprints, so different fingerprints tell characters apart at once; equal
ones do not decide. What makes them useful is `fingerprint_slide`: the fingerprint of a window of a
text gives that of the window one character further on, whatever the length of the window.
-/

namespace BraceScript.Chars

/-- The base of the fingerprints. -/
def base : UInt64 := 6364136223846793005

/-- The number of a character. -/
def number (c : Char) : UInt64 := c.val.toUInt64

/-- The fingerprint of characters that follow others, whose fingerprint is `print`. -/
def extendPrint (print : UInt64) (cs : List Char) : UInt64 :=
  cs.foldl (fun print c => print * base + number c) print

/-- The fingerprint of characters. -/
def fingerprint (cs : List Char) : UInt64 :=
  extendPrint 0 cs

/-- How much a character counts that stands before `cs`. -/
def weight (cs : List Char) : UInt64 :=
  cs.foldl (fun weight _ => weight * base) 1

theorem foldl_mul_base (w : UInt64) (cs : List Char) :
    cs.foldl (fun weight _ => weight * base) w = w * weight cs := by
  unfold weight
  induction cs generalizing w with
  | nil => simp
  | cons c cs ih =>
    simp only [List.foldl_cons]
    rw [ih (w * base), ih (1 * base)]
    grind

theorem weight_cons (c : Char) (cs : List Char) : weight (c :: cs) = base * weight cs := by
  have h := foldl_mul_base (1 * base) cs
  simpa [weight] using h

/-- All texts of one length have one weight. -/
theorem weight_eq_of_length_eq {cs ds : List Char} (h : cs.length = ds.length) :
    weight cs = weight ds := by
  induction cs generalizing ds with
  | nil => cases ds <;> simp_all
  | cons c cs ih =>
    cases ds with
    | nil => simp at h
    | cons d ds => rw [weight_cons, weight_cons, ih (by simpa using h)]

theorem extendPrint_eq (print : UInt64) (cs : List Char) :
    extendPrint print cs = print * weight cs + fingerprint cs := by
  unfold fingerprint
  induction cs generalizing print with
  | nil => simp [extendPrint, weight]
  | cons c cs ih =>
    have step (p : UInt64) : extendPrint p (c :: cs) = extendPrint (p * base + number c) cs := rfl
    rw [step, step, ih (print * base + number c), ih (0 * base + number c), weight_cons]
    grind

/-- Moving a window by one character: `c` leaves it, `d` enters it. -/
theorem fingerprint_slide {c d : Char} {window next : List Char}
    (h : c :: next = window ++ [d]) :
    fingerprint next = fingerprint window * base + number d - number c * weight next := by
  have whole : fingerprint (c :: next) = fingerprint window * base + number d := by
    rw [h]
    simp [fingerprint, extendPrint]
  have parts : fingerprint (c :: next) = number c * weight next + fingerprint next := by
    have step : fingerprint (c :: next) = extendPrint (0 * base + number c) next := rfl
    rw [step, extendPrint_eq]
    grind
  rw [← whole, parts]
  grind

end BraceScript.Chars
