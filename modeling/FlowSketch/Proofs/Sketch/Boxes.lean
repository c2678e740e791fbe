/-
# A box claims its inside

A node is drawn as a box: along the four sides, and then along the upper side to the middle.  The
pixel below the end of the stroke is inside then, whether or not the width is even, and no way
leads out: a step from the inside to a neighbour ends inside or on a side, and the sides have the
color of the ink.  So a box whose inside has one color, another one than the ink, becomes the
territory of a new node, and nothing else does.

Main statement: `boxes_of_operations`.
-/
import FlowSketch.Proofs.Raster.Rectangles
import FlowSketch.Proofs.Sketch.Claiming

namespace FlowSketch

/-! ## Paths -/

/-- The pixels of the lines from each point of a path to the next. -/
def Line.pathPoints (path : List Point) : List Point :=
  (path.zip path.tail).flatMap fun (a, b) => points a b

lemma Grid.paint_append {α : Type} (g : Grid α) (ps qs : List Point) (a : α) :
    g.paint (ps ++ qs) a = (g.paint ps a).paint qs a :=
  List.foldl_append

/-! ## Boxes -/

/-- The four sides of a rectangle that has pixels inside. -/
structure Box where
  /-- The first column. -/
  left : ℤ
  /-- The first row. -/
  top : ℤ
  /-- The last column. -/
  right : ℤ
  /-- The last row. -/
  bottom : ℤ
  /-- There is a column between the first and the last. -/
  wide : left + 2 ≤ right
  /-- There is a row between the first and the last. -/
  high : top + 2 ≤ bottom

namespace Box

variable (box : Box) {p q : Point}

/-- The rectangle with its sides. -/
def outer : Rect := ⟨box.left, box.top, box.right - box.left + 1, box.bottom - box.top + 1⟩

/-- The rectangle without its sides. -/
def inner : Rect := ⟨box.left + 1, box.top + 1, box.right - box.left - 1, box.bottom - box.top - 1⟩

/-- Where the stroke ends: in the middle of the upper side. -/
def finish : Point := ⟨(box.left + box.right) / 2, box.top⟩

/-- The corners in the order in which they are drawn, back to the first one, and the end of the
stroke. -/
def path : List Point :=
  [⟨box.left, box.top⟩, ⟨box.right, box.top⟩, ⟨box.right, box.bottom⟩, ⟨box.left, box.bottom⟩,
    ⟨box.left, box.top⟩, box.finish]

/-- The stroke that draws a box. -/
def stroke (tool : Tool) : Stroke := ⟨tool, ⟨box.left, box.top⟩, box.finish⟩

/-- A box is on a surface, and the surface has one color inside of it, another one than the ink. -/
structure FreeOn (canvas : Canvas) (ink : Color) : Prop where
  first : canvas.bounds.covers ⟨box.left, box.top⟩ = true
  last : canvas.bounds.covers ⟨box.right, box.bottom⟩ = true
  color : ∃ color, color ≠ ink ∧ ∀ p, box.inner.covers p = true → canvas.get? p = some color

lemma area_inner :
    (box.inner.area : ℤ) = (box.right - box.left - 1) * (box.bottom - box.top - 1) := by
  have hwide := box.wide
  have hhigh := box.high
  simp only [Rect.area, inner, Nat.cast_mul]
  rw [Int.toNat_of_nonneg (by omega), Int.toNat_of_nonneg (by omega)]

lemma outer_covers_of_inner (hp : box.inner.covers p = true) : box.outer.covers p = true := by
  rw [Rect.covers_iff] at hp ⊢
  simp only [inner, outer] at hp ⊢
  omega

/-- A neighbour of a pixel inside is inside or on a side. -/
lemma outer_covers_of_neighbour (hp : box.inner.covers p = true) (hq : q ∈ p.neighbours) :
    box.outer.covers q = true := by
  rw [Point.mem_neighbours_iff] at hq
  rw [Rect.covers_iff] at hp ⊢
  simp only [inner, outer] at hp ⊢
  omega

lemma outer_covers_finish : box.outer.covers box.finish = true := by
  have hwide := box.wide
  have hhigh := box.high
  simp only [Rect.covers_iff, outer, finish]
  omega

/-- The pixel below the end of the stroke is inside. -/
lemma inner_covers_below_finish : box.inner.covers (box.finish.shift 0 1) = true := by
  have hwide := box.wide
  have hhigh := box.high
  simp only [Rect.covers_iff, inner, finish, Point.shift]
  omega

variable {box} {canvas : Canvas} {ink : Color}

/-- The way that a box is drawn goes along all of its sides and nowhere else. -/
lemma mem_pathPoints_iff : p ∈ Line.pathPoints box.path ↔
    box.outer.covers p = true ∧ box.inner.covers p = false := by
  have hwide := box.wide
  have hhigh := box.high
  rw [Bool.eq_false_iff, ne_eq, Rect.covers_iff, Rect.covers_iff]
  simp only [Line.pathPoints, path, List.tail_cons, List.zip_cons_cons, List.zip_nil_right,
    List.flatMap_cons, List.flatMap_nil, List.append_nil, List.mem_append, outer, inner, finish,
    Line.mem_points_row, Line.mem_points_column]
  omega

namespace FreeOn

/-- A surface with two opposite corners has all pixels of a box. -/
lemma covers (h : box.FreeOn canvas ink) (hp : box.outer.covers p = true) :
    canvas.bounds.covers p = true := by
  have hfirst := h.first
  have hlast := h.last
  rw [Rect.covers_iff] at hfirst hlast hp ⊢
  simp only [outer] at hfirst hlast hp ⊢
  omega

/-- Drawing a box colors its sides. -/
lemma get?_side (h : box.FreeOn canvas ink) (hp : box.outer.covers p = true)
    (hout : box.inner.covers p = false) :
    (canvas.paint (Line.pathPoints box.path) ink).get? p = some ink := by
  rw [Grid.get?_paint, if_pos ⟨mem_pathPoints_iff.mpr ⟨hp, hout⟩, h.covers hp⟩]

/-- Drawing a box leaves the inside as it is. -/
lemma get?_inner (hp : box.inner.covers p = true) :
    (canvas.paint (Line.pathPoints box.path) ink).get? p = canvas.get? p := by
  rw [Grid.get?_paint, if_neg]
  rintro ⟨hmem, -⟩
  exact Bool.false_ne_true ((mem_pathPoints_iff.mp hmem).2.symm.trans hp)

/-- Drawing a box leaves the outside as it is. -/
lemma get?_outside (hp : box.outer.covers p = false) :
    (canvas.paint (Line.pathPoints box.path) ink).get? p = canvas.get? p := by
  rw [Grid.get?_paint, if_neg]
  rintro ⟨hmem, -⟩
  exact Bool.false_ne_true (hp.symm.trans (mem_pathPoints_iff.mp hmem).1)

/-- **The sides of a box are tight, and its inside is connected.** -/
lemma connected_iff (h : box.FreeOn canvas ink) :
    Connected (canvas.paint (Line.pathPoints box.path) ink) canvas.bounds (box.finish.shift 0 1) p ↔
      box.inner.covers p = true := by
  obtain ⟨color, hink, hcolor⟩ := h.color
  have hinner : ∀ q, box.inner.covers q = true →
      (canvas.paint (Line.pathPoints box.path) ink).get? q = some color := fun q hq =>
    (get?_inner hq).trans (hcolor q hq)
  have hseed := hinner _ box.inner_covers_below_finish
  refine connected_iff_covers box.inner_covers_below_finish (fun q hq => ?_)
    fun p q hp hq hout => ?_
  · exact ⟨h.covers (box.outer_covers_of_inner hq), (hinner q hq).trans hseed.symm⟩
  · rw [h.get?_side (box.outer_covers_of_neighbour hp hq) hout, hseed]
    exact fun heq => hink (Option.some.inj heq).symm

end FreeOn

end Box

namespace Sketch

variable {s k : Sketch} {width height : ℕ} {tool : Tool} {box : Box}

/-! ## Drawing a box -/

/-- Leaves lines of ink from each point of a path to the next. -/
def tracePath (s : Sketch) (tool : Tool) (path : List Point) : Sketch :=
  (path.zip path.tail).foldl (fun s (a, b) => s.trace tool a b) s

/-- The lines of a path are painted on the surface, and nothing else changes. -/
lemma tracePath_eq (s : Sketch) (tool : Tool) (path : List Point) : s.tracePath tool path =
    { s with canvas := s.canvas.paint (Line.pathPoints path) tool.ink } := by
  have key : ∀ (sides : List (Point × Point)) (s : Sketch),
      sides.foldl (fun s (a, b) => s.trace tool a b) s = { s with
        canvas := s.canvas.paint (sides.flatMap fun (a, b) => Line.points a b) tool.ink } := by
    intro sides
    induction sides with
    | nil => exact fun s => rfl
    | cons side sides ih =>
      intro s
      rw [List.foldl_cons, ih, List.flatMap_cons, Grid.paint_append]
      simp only [trace, Grid.drawLine_eq_paint]
  exact key _ s

@[simp] lemma settings_tracePath (s : Sketch) (tool : Tool) (path : List Point) :
    (s.tracePath tool path).settings = s.settings := by
  rw [tracePath_eq]

@[simp] lemma canvas_tracePath (s : Sketch) (tool : Tool) (path : List Point) :
    (s.tracePath tool path).canvas = s.canvas.paint (Line.pathPoints path) tool.ink := by
  rw [tracePath_eq]

@[simp] lemma owners_tracePath (s : Sketch) (tool : Tool) (path : List Point) :
    (s.tracePath tool path).owners = s.owners := by
  rw [tracePath_eq]

@[simp] lemma graph_tracePath (s : Sketch) (tool : Tool) (path : List Point) :
    (s.tracePath tool path).graph = s.graph := by
  rw [tracePath_eq]

lemma Coherent.tracePath (hs : s.Coherent width height) (tool : Tool) (path : List Point) :
    (s.tracePath tool path).Coherent width height := by
  rw [tracePath_eq]
  exact hs.of_paints (.ink _ tool.alpha_ink_ne rfl rfl rfl)

/-- A sketch has become another one by a box that was drawn with a tool. -/
structure Boxes (s k : Sketch) (tool : Tool) (box : Box) : Prop where
  /-- The next node owns the pixels inside and no others. -/
  owned (p : Point) : k.ownerAt p = some s.graph.nextNode ↔ box.inner.covers p = true
  /-- So it owns as many as there are. -/
  count : (k.owners.count s.graph.nextNode : ℤ) =
    (box.right - box.left - 1) * (box.bottom - box.top - 1)
  /-- The other pixels have the owner that they had. -/
  owners_other (p : Point) : box.inner.covers p = false → k.ownerAt p = s.ownerAt p
  /-- The sides have the color of the ink. -/
  sides (p : Point) : box.outer.covers p = true → box.inner.covers p = false →
    k.canvas.get? p = some tool.ink
  /-- The inside has the color of the next node. -/
  painted (p : Point) : box.inner.covers p = true →
    k.canvas.get? p = some (Color.territory s.graph.nextNode)
  /-- The pixels outside have the color that they had. -/
  canvas_other (p : Point) : box.outer.covers p = false → k.canvas.get? p = s.canvas.get? p

/-- A node that claims the inside of a box that was traced leaves the sides to the ink. -/
lemma boxes_of_claims (hbox : box.FreeOn s.canvas tool.ink)
    (hclaims : (s.tracePath tool box.path).Claims k {p | box.inner.covers p = true}) :
    s.Boxes k tool box := by
  rw [tracePath_eq] at hclaims
  have hout : ∀ {p}, box.inner.covers p = false → p ∉ {p | box.inner.covers p = true} :=
    fun hp hmem => Bool.false_ne_true (hp.symm.trans hmem)
  constructor
  case owned => exact hclaims.owned
  case count =>
    have hcount := hclaims.count
    rw [Rect.encard_covers, Nat.cast_inj] at hcount
    rw [← box.area_inner, hcount]
  case owners_other => exact fun p hp => hclaims.owners_other p (hout hp)
  case sides =>
    exact fun p hp hp' => (hclaims.canvas_other p (hout hp')).trans (hbox.get?_side hp hp')
  case painted => exact hclaims.painted
  case canvas_other =>
    intro p hp
    have hinner : box.inner.covers p = false := by
      rw [← Bool.not_eq_true]
      exact fun hin => Bool.false_ne_true (hp.symm.trans (box.outer_covers_of_inner hin))
    exact (hclaims.canvas_other p (hout hinner)).trans (Box.FreeOn.get?_outside hp)

/-- **A box claims its inside.**  After any operations on a blank surface, when nodes claim the
area below the ends of their strokes, a box is drawn with a node tool.  If it is on the surface,
which has one color inside of the box, another one than the ink, then the box is the next node.
Its parent is the owner of the stroke's end before the stroke, and it owns exactly the inside. -/
theorem boxes_of_operations {settings : Settings} (hprobe : settings.probe = (0, 1))
    (width height : ℕ) (ops : List Op) {s : Sketch}
    (hs : (onCanvas settings (Canvas.blank width height)).performAll ops = .ok s)
    (hsize : s.graph.nodes.size < 2 ^ 24 - 1) {tool : Tool} {kind : NodeKind}
    (hkind : tool.nodeKind? = some kind) {box : Box} (hbox : box.FreeOn s.canvas tool.ink) :
    ∃ parent k, s.ownerAt box.finish = some parent ∧
      (s.tracePath tool box.path).apply (box.stroke tool) = .ok (.node s.graph.nextNode, k) ∧
      k.graph.node? s.graph.nextNode = some ⟨s.graph.nextNode, some parent, kind⟩ ∧
      s.Boxes k tool box := by
  obtain ⟨s', hs', hsettings, hcoherent⟩ := exists_coherent settings width height ops
  cases hs.symm.trans hs'
  obtain ⟨parent, hparent⟩ :=
    Grid.exists_get? (hcoherent.bounds_eq ▸ hbox.covers box.outer_covers_finish)
  have hparentAt : (s.tracePath tool box.path).parentAt box.finish = parent := by
    rw [parentAt, ownerAt, owners_tracePath, hparent, Option.getD_some]
  have hseed : (s.tracePath tool box.path).probeAt box.finish = box.finish.shift 0 1 := by
    rw [probeAt, settings_tracePath, hsettings, hprobe]
  have hcov : s.canvas.bounds.covers (box.finish.shift 0 1) = true :=
    hbox.covers (box.outer_covers_of_inner box.inner_covers_below_finish)
  have htraced := hcoherent.tracePath tool box.path
  obtain ⟨k, hadd, hk, hclaims⟩ := exists_claims_of_addNode htraced
    (by rw [graph_tracePath]; omega) (by rwa [hseed, canvas_tracePath, Grid.bounds_paint]) kind
  have hnode := htraced.node?_addNode box.finish kind
  rw [← hk, hparentAt] at hnode
  simp only [hseed, canvas_tracePath, Grid.bounds_paint, hbox.connected_iff] at hclaims
  rw [graph_tracePath] at hadd hnode
  exact ⟨parent, k, hparent, (apply_of_nodeKind? hkind).trans hadd, hnode,
    boxes_of_claims hbox hclaims⟩

/-- A box of four columns and three rows. -/
def cell : Box := ⟨0, 0, 3, 2, by decide, by decide⟩

/-- Beside a line, a box with two pixels inside claims these two. -/
theorem boxes_of_operations_cell :
    ∃ s k, (onCanvas {} (Canvas.blank 5 3)).performAll [.trace .comment ⟨4, 0⟩ ⟨4, 2⟩] = .ok s ∧
      (s.tracePath .scope cell.path).apply (cell.stroke .scope) = .ok (.node ⟨1⟩, k) ∧
      k.owners.count ⟨1⟩ = 2 ∧ k.ownerAt ⟨2, 1⟩ = some ⟨1⟩ ∧
      k.canvas.get? ⟨4, 1⟩ = some Tool.comment.ink := by
  have hbox : cell.FreeOn ((onCanvas {} (Canvas.blank 5 3)).trace .comment ⟨4, 0⟩ ⟨4, 2⟩).canvas
      Tool.scope.ink := by
    refine ⟨by decide +kernel, by decide +kernel, .white, by decide, fun p hp => ?_⟩
    obtain ⟨x, y⟩ := p
    rw [Rect.covers_iff] at hp
    simp only [Box.inner, cell] at hp
    obtain rfl : y = 1 := by omega
    obtain rfl | rfl : x = 1 ∨ x = 2 := by omega
    · decide +kernel
    · decide +kernel
  obtain ⟨parent, k, -, happly, -, hk⟩ := @boxes_of_operations {} rfl 5 3
    [.trace .comment ⟨4, 0⟩ ⟨4, 2⟩] _ rfl (by decide +kernel) .scope _ rfl cell hbox
  have hcount : (k.owners.count ⟨1⟩ : ℤ) = 2 := hk.count
  have hother := hk.canvas_other ⟨4, 1⟩ (by decide)
  exact ⟨_, k, rfl, happly, by exact_mod_cast hcount, (hk.owned _).mpr (by decide),
    hother.trans (by decide +kernel)⟩

end Sketch

end FlowSketch
