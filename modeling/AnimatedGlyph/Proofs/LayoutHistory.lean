/-
A layout after any number of requests.

A layout goes by comparing numbers when it decides whether to project again, so the canvas that
it has kept and the one that it was last asked for may differ in the signs of zeros.
`Layout.Serves` says what is true all the same, `Layout.Serves.reconfigure` carries it over one
request, and `Layout.Serves.run` over a run of them.

`Layout.run_never_stale` puts this in terms of a run.  It leaves out no request, not even for a
canvas with an undefined number, which compares as equal with no canvas and so is projected
whenever it is asked for.
-/
import AnimatedGlyph.Grid.Projection
import AnimatedGlyph.Proofs.SignedZeros

namespace AnimatedGlyph

open Number (Similar)

/-! ## Canvases that compare as equal -/

/-- The same points, but for the signs of zeros. -/
def Projection.UpToZero (points others : Projection) : Prop :=
  ∀ node : Node, Number.UpToZero (points.get node).x (others.get node).x ∧
    Number.UpToZero (points.get node).y (others.get node).y

namespace Canvas

/-- No number of the canvas is the result of an undefined operation. -/
def IsDefined (canvas : Canvas) : Prop :=
  canvas.scale.isNaN = false ∧ canvas.originX.isNaN = false ∧ canvas.originY.isNaN = false ∧
    canvas.fontSize.isNaN = false ∧ canvas.fontSpacing.isNaN = false

instance (canvas : Canvas) : Decidable canvas.IsDefined :=
  inferInstanceAs (Decidable (_ ∧ _))

/-- The same canvas, but for the signs of zeros. -/
structure Matches (a b : Canvas) : Prop where
  scale : Similar a.scale b.scale
  originX : Similar a.originX b.originX
  originY : Similar a.originY b.originY
  fontSize : Similar a.fontSize b.fontSize
  fontSpacing : Similar a.fontSpacing b.fontSpacing

variable {a b : Canvas}

theorem Matches.refl (canvas : Canvas) : canvas.Matches canvas :=
  ⟨.inl rfl, .inl rfl, .inl rfl, .inl rfl, .inl rfl⟩

theorem Matches.symm (h : a.Matches b) : b.Matches a :=
  ⟨h.scale.symm, h.originX.symm, h.originY.symm, h.fontSize.symm, h.fontSpacing.symm⟩

theorem agrees_iff : a.agrees b = true ↔ a.Matches b ∧ b.IsDefined := by
  simp only [agrees, Bool.and_eq_true, Number.beq_iff_similar]
  constructor
  · rintro ⟨⟨⟨⟨⟨hs, ds⟩, hx, dx⟩, hy, dy⟩, hf, df⟩, hg, dg⟩
    exact ⟨⟨hs, hx, hy, hf, hg⟩, ds, dx, dy, df, dg⟩
  · rintro ⟨⟨hs, hx, hy, hf, hg⟩, ds, dx, dy, df, dg⟩
    exact ⟨⟨⟨⟨⟨hs, ds⟩, hx, dx⟩, hy, dy⟩, hf, df⟩, hg, dg⟩

/-- Comparing does not tell canvases that match apart. -/
theorem Matches.agrees_congr (h : a.Matches b) (canvas : Canvas) :
    canvas.agrees a = canvas.agrees b := by
  rw [agrees, h.scale.beq_congr, h.originX.beq_congr, h.originY.beq_congr,
    h.fontSize.beq_congr, h.fontSpacing.beq_congr, agrees]

theorem Matches.project (h : a.Matches b) :
    Projection.UpToZero (AnimatedGlyph.project a) (AnimatedGlyph.project b) := by
  intro node
  have hpoint : ∀ canvas, (AnimatedGlyph.project canvas).get node =
      (Node.place node).onCanvas canvas := fun canvas => Vector.getElem_ofFn node.isLt
  rw [hpoint, hpoint]
  exact ⟨h.originX.add (h.scale.mul_left _).similar, h.originY.sub (h.scale.mul_left _).similar⟩

end Canvas

namespace Layout

/-! ## One request -/

/-- The layout is one for a canvas, after so many projections. -/
structure Serves (layout : Layout) (canvas : Canvas) (made : Nat) : Prop where
  points : layout.points = project layout.canvas
  matched : layout.canvas.Matches canvas
  projections : layout.projections = made

theorem serves_ofCanvas (canvas : Canvas) : (ofCanvas canvas).Serves canvas 1 :=
  ⟨rfl, .refl canvas, rfl⟩

variable {layout : Layout} {former : Canvas} {made : Nat}

/-- It depends on the canvas asked for before whether there is a new projection, although the
layout compares with the canvas that it has. -/
theorem Serves.reconfigure (h : layout.Serves former made) (canvas : Canvas) :
    (layout.reconfigure canvas).1 = !canvas.agrees former ∧
      (layout.reconfigure canvas).2.Serves canvas (made + (!canvas.agrees former).toNat) := by
  have hcompared := h.matched.agrees_congr canvas
  rw [Layout.reconfigure, hcompared]
  cases hagrees : canvas.agrees former with
  | true =>
    rw [hagrees] at hcompared
    exact ⟨rfl, h.points, (Canvas.agrees_iff.mp hcompared).1.symm, h.projections⟩
  | false => exact ⟨rfl, rfl, .refl canvas, congrArg (· + 1) h.projections⟩

/-! ## Runs -/

/-- The canvases that requests ask for, one after the other. -/
def asked (layout : Layout) : List LayoutRequest → List Canvas
  | [] => []
  | request :: rest => layout.target request :: (layout.follow request).2.asked rest

theorem run_cons (layout : Layout) (request : LayoutRequest) (rest : List LayoutRequest) :
    layout.run (request :: rest) = ((layout.follow request).1 ::
      ((layout.follow request).2.run rest).1, ((layout.follow request).2.run rest).2) := rfl

theorem length_run (requests : List LayoutRequest) : ∀ layout : Layout,
    (layout.run requests).1.length = requests.length := by
  induction requests with
  | nil => intro layout; rfl
  | cons request rest ih =>
    intro layout
    rw [run_cons, List.length_cons, List.length_cons, ih]

theorem count_true_cons (changed : Bool) (rest : List Bool) :
    (changed :: rest).count true = changed.toNat + rest.count true := by
  rw [List.count_cons, Nat.add_comm]
  cases changed <;> rfl

/-- Each request is made to the layout that those before it leave. -/
theorem getElem?_asked (requests : List LayoutRequest) : ∀ (layout : Layout) (k : Nat)
    {request : LayoutRequest}, requests[k]? = some request →
      (layout.asked requests)[k]? = some ((layout.run (requests.take k)).2.target request) := by
  induction requests with
  | nil => exact fun _ _ => nofun
  | cons first rest ih =>
    intro layout k request hrequest
    cases k with
    | zero =>
      cases hrequest
      rfl
    | succ k => exact ih (layout.follow first).2 k hrequest

variable {requests : List LayoutRequest} {k : Nat} {first canvas : Canvas}

theorem Serves.answer (h : layout.Serves first made)
    (hformer : (first :: layout.asked requests)[k]? = some former)
    (hcanvas : (layout.asked requests)[k]? = some canvas) :
    (layout.run requests).1[k]? = some (!canvas.agrees former) := by
  induction requests generalizing layout first made k with
  | nil => cases hcanvas
  | cons request rest ih =>
    obtain ⟨hchanged, hnext⟩ := h.reconfigure (layout.target request)
    cases k with
    | zero =>
      cases hformer
      cases hcanvas
      exact congrArg some hchanged
    | succ k => exact ih hnext hformer hcanvas

/-- At every point of a run the layout is one for the canvas last asked for. -/
theorem Serves.run (h : layout.Serves first made)
    (hcanvas : (first :: layout.asked requests)[k]? = some canvas) :
    (layout.run (requests.take k)).2.Serves canvas
      (made + ((layout.run requests).1.take k).count true) := by
  -- The induction is on the point of the run, which may be at or before its end.
  induction k generalizing requests layout first made with
  | zero =>
    cases hcanvas
    exact h
  | succ k ih =>
    cases requests with
    | nil => cases hcanvas
    | cons request rest =>
      obtain ⟨hchanged, hnext⟩ := h.reconfigure (layout.target request)
      rw [← hchanged] at hnext
      rw [List.take_succ_cons, run_cons, run_cons, List.take_succ_cons, count_true_cons,
        ← Nat.add_assoc]
      exact ih hnext hcanvas

/-- At every point of a run the points are the projection of the canvas that the layout has, and
so, but for the signs of zeros, of the one last asked for, which is equal to it if all numbers
of it are defined.  A request has a new projection made, and says so, if the canvas that it asks
for differs from the one asked for before; no others are made but the first. -/
theorem run_never_stale (initial : Canvas) (requests : List LayoutRequest) :
    let start := ofCanvas initial
    let asked := initial :: start.asked requests
    let changed := (start.run requests).1
    let layout (k : Nat) := (start.run (requests.take k)).2
    changed.length = requests.length ∧
      (∀ k request, requests[k]? = some request →
        asked[k + 1]? = some ((layout k).target request)) ∧
      (∀ k former canvas, asked[k]? = some former → asked[k + 1]? = some canvas →
        changed[k]? = some (!canvas.agrees former)) ∧
      ∀ k canvas, asked[k]? = some canvas →
        (layout k).points = project (layout k).canvas ∧
          (layout k).points.UpToZero (project canvas) ∧
          (canvas.IsDefined → (layout k).canvas.agrees canvas = true) ∧
          (layout k).projections = 1 + (changed.take k).count true ∧
          ∀ before, (layout k).counter before =
            before + 1 + .ofNat ((changed.take k).count true) := by
  intro start asked changed layout
  have hstart : start.Serves initial 1 := serves_ofCanvas initial
  refine ⟨length_run requests start, fun k request => getElem?_asked requests start k,
    fun k former canvas => hstart.answer, fun k canvas hcanvas => ?_⟩
  have hserves := hstart.run hcanvas
  refine ⟨hserves.points, ?_, ?_, hserves.projections, fun before => ?_⟩
  · rw [hserves.points]
    exact hserves.matched.project
  · exact fun hdefined => Canvas.agrees_iff.mpr ⟨hserves.matched, hdefined⟩
  · rw [counter, hserves.projections, UInt32.ofNat_add, UInt32.add_assoc]
    rfl

/-- A canvas that differs in the sign of a zero leaves the layout as it is, and the counter goes
past its greatest number. -/
theorem run_never_stale_at_negative_zero :
    let initial : Canvas := { Canvas.standard with originX := 0.0 }
    let mirrored : Canvas := { Canvas.standard with originX := -0.0 }
    let requests : List LayoutRequest := [.lines 2, .move mirrored, .lines 1, .move initial]
    let layout (k : Nat) := ((ofCanvas initial).run (requests.take k)).2
    mirrored ≠ initial ∧ mirrored.IsDefined ∧ (layout 2).canvas = initial ∧
      (layout 2).canvas.agrees mirrored = true ∧
      ((ofCanvas initial).run requests).1[1]? = some false ∧
      (layout 4).points = project (layout 4).canvas ∧ (layout 4).projections = 3 ∧
      (layout 4).counter 4294967295 = 2 := by
  intro initial mirrored requests layout
  have hdefined : mirrored.IsDefined := by decide +kernel
  have hcount : (((ofCanvas initial).run requests).1.take 4).count true = 2 := by decide +kernel
  obtain ⟨-, hasked, hanswers, hlayout⟩ := run_never_stale initial requests
  obtain ⟨-, -, hagrees, -, -⟩ := hlayout 2 mirrored (hasked 1 _ rfl)
  obtain ⟨hpoints, -, -, hprojections, hcounter⟩ := hlayout 4 initial (hasked 3 _ rfl)
  rw [hcount] at hprojections hcounter
  refine ⟨by decide +kernel, hdefined, ?_, hagrees hdefined, ?_, hpoints, hprojections,
    (hcounter 4294967295).trans (by decide)⟩
  · decide +kernel
  · rw [hanswers 1 _ mirrored (hasked 0 _ rfl) (hasked 1 _ rfl)]
    decide +kernel

end Layout
end AnimatedGlyph
