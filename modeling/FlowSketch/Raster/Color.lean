/-
# Colors

Eight bits for each of red, green, blue and opacity.  The territory of a node is painted in
a color made from the node's number, with an opacity that no drawing tool uses: no two
nodes below 2 ^ 24 share it and it is never mistaken for a stroke or for the blank
canvas.
-/
import FlowSketch.Graph.Id

namespace FlowSketch

/-- A color with opacity. -/
structure Color where
  /-- The red part. -/
  red : UInt8
  /-- The green part. -/
  green : UInt8
  /-- The blue part. -/
  blue : UInt8
  /-- The opacity. -/
  alpha : UInt8
deriving DecidableEq, Repr, Inhabited

/-- The value of a hexadecimal digit, in capital or small letters. -/
def hexValue? (c : Char) : Option Nat :=
  if '0' ≤ c ∧ c ≤ '9' then some (c.toNat - '0'.toNat)
  else if 'a' ≤ c ∧ c ≤ 'f' then some (c.toNat - 'a'.toNat + 10)
  else if 'A' ≤ c ∧ c ≤ 'F' then some (c.toNat - 'A'.toNat + 10)
  else none

namespace Color

/-- An opaque color. -/
def rgb (red green blue : UInt8) : Color := ⟨red, green, blue, 0xFF⟩

/-- The blank canvas. -/
def white : Color := rgb 0xFF 0xFF 0xFF

/-- The color of ink. -/
def black : Color := rgb 0 0 0

/-- The opacity of claimed territory. -/
def territoryAlpha : UInt8 := 0xFE

/-- The color of the territory of a node.  The number of the node, plus one so that it is
never 0, fills the three color parts. -/
def territory (id : NodeId) : Color :=
  let n := (id.index + 1) % 0x1000000
  ⟨UInt8.ofNat (n / 0x10000), UInt8.ofNat (n / 0x100), UInt8.ofNat n, territoryAlpha⟩

/-- The opaque color written as six hexadecimal digits, with or without a hash sign in
front. -/
def ofHex? (text : List Char) : Option Color :=
  let digits := if text.head? = some '#' then text.tail else text
  match digits.mapM hexValue? with
  | some [r₁, r₀, g₁, g₀, b₁, b₀] =>
    some (rgb (UInt8.ofNat (16 * r₁ + r₀)) (UInt8.ofNat (16 * g₁ + g₀))
      (UInt8.ofNat (16 * b₁ + b₀)))
  | _ => none

/-- A number below 256 in two hexadecimal digits. -/
def hexPair (n : Nat) : List Char := [Nat.digitChar (n / 16 % 16), Nat.digitChar (n % 16)]

/-- The eight hexadecimal digits of a color. -/
def hex (c : Color) : String :=
  String.ofList ([c.red, c.green, c.blue, c.alpha].flatMap fun part => hexPair part.toNat)

theorem territory_alpha (id : NodeId) : (territory id).alpha = territoryAlpha := rfl

/-- Nodes below 2 ^ 24 have territories of different colors. -/
theorem territory_inj {a b : NodeId} (ha : a.index < 0x1000000) (hb : b.index < 0x1000000)
    (h : territory a = territory b) : a = b := by
  simp only [territory, Color.mk.injEq, and_true] at h
  obtain ⟨hr, hg, hl⟩ := h
  have hr := congrArg UInt8.toNat hr
  have hg := congrArg UInt8.toNat hg
  have hl := congrArg UInt8.toNat hl
  simp only [UInt8.toNat_ofNat'] at hr hg hl
  have : a.index = b.index := by omega
  cases a; cases b; simp_all

end Color

end FlowSketch
