import Iconsmith.Proofs.Outline.Explicit

/-!
# Pens and the outlines that they leave

A pen keeps where it is, where the outline began and the last control point, each in a field of its own.
No field can part from what was drawn: it can be read off the last segment, or off the last move. One
command keeps the two in step from any pen on, an arc too, since it is never cut into no pieces at all.
-/

namespace Iconsmith

variable {α : Type} [Scalar α]

/-! ### The last piece of an arc -/

namespace CenterArc

lemma getLast?_pieces (a : CenterArc α) (k step : α) (finish : Point α) (n : Nat) (θ : α) :
    ∃ c₁ c₂, (a.pieces k step finish (n + 1) θ).getLast? = some (.cubic c₁ c₂ finish) := by
  induction n generalizing θ with
  | zero => exact ⟨_, _, rfl⟩
  | succ n ih =>
    obtain ⟨c₁, c₂, hlast⟩ := ih (θ + step)
    refine ⟨c₁, c₂, ?_⟩
    rw [pieces, List.getLast?_cons, hlast, Option.getD_some]

/-- However large the angle of an arc is, and also if it is undefined, there is a last piece. -/
lemma getLast?_curves (a : CenterArc α) (finish : Point α) :
    ∃ c₁ c₂, (a.curves finish).getLast? = some (.cubic c₁ c₂ finish) := by
  have hone : 1 ≤ a.pieceCount := Nat.le_max_left 1 _
  obtain ⟨n, hn⟩ := Nat.exists_eq_add_of_le' hone
  rw [curves, hn]
  exact a.getLast?_pieces _ _ finish n a.start

end CenterArc

lemma Arc.getLast?_segments (arc : Arc α) (start finish : Point α) :
    ∃ s, (arc.segments start finish).getLast? = some s ∧ s.finish? = some finish := by
  unfold Arc.segments
  dsimp only
  split_ifs
  · exact ⟨_, rfl, rfl⟩
  · obtain ⟨c₁, c₂, hlast⟩ :=
      (CenterArc.between start finish ⟨Scalar.abs arc.radii.x, Scalar.abs arc.radii.y⟩ arc).getLast?_curves
        finish
    exact ⟨_, hlast, rfl⟩

namespace Pen

variable {pen : Pen α} {cs : List (Command α)}

/-! ### One command -/

/-- A command other than an arc draws one segment. -/
lemma length_draw (pen : Pen α) {c : Command α} (h : c.verb ≠ .arc) : (pen.draw c).1.length = 1 := by
  cases c with
  | arcTo => exact absurd rfl h
  | _ => rfl

/-- Only a move makes the outline begin elsewhere. -/
lemma start_draw (pen : Pen α) {c : Command α} (h : c.verb ≠ .move) :
    (pen.draw c).2.start = pen.start := by
  cases c with
  | moveTo => exact absurd rfl h
  | _ => rfl

lemma isSome_lastCubic_draw (pen : Pen α) (c : Command α) :
    (pen.draw c).2.lastCubic.isSome ↔ c.verb ∈ [Verb.cubic, .smoothCubic] := by
  cases c <;> simp [Pen.draw, Pen.line, Pen.cubic, Pen.quadratic, Pen.goTo, Command.verb]

lemma isSome_lastQuadratic_draw (pen : Pen α) (c : Command α) :
    (pen.draw c).2.lastQuadratic.isSome ↔ c.verb ∈ [Verb.quadratic, .smoothQuadratic] := by
  cases c <;> simp [Pen.draw, Pen.line, Pen.cubic, Pen.quadratic, Pen.goTo, Command.verb]

/-- The pen is where the last segment ends, and keeps the control point of that segment. -/
structure StandsAt (pen : Pen α) (s : Segment α) : Prop where
  current : pen.current = s.finish?.getD pen.start
  lastCubic : ∀ c ∈ pen.lastCubic, ∃ c₁ p, s = .cubic c₁ c p
  lastQuadratic : ∀ c ∈ pen.lastQuadratic, ∃ p, s = .quadratic c p

omit [Scalar α] in
/-- A pen without control points stands at any segment that ends where it is. -/
lemma standsAt_goTo {p : Point α} {s : Segment α} (h : s.finish? = some p) :
    (pen.goTo p).StandsAt s where
  current := by rw [h]; rfl
  lastCubic := nofun
  lastQuadratic := nofun

omit [Scalar α] in
lemma exists_standsAt_cubic (pen : Pen α) (c₁ c₂ p : Point α) :
    ∃ s, (pen.cubic c₁ c₂ p).1.getLast? = some s ∧ (pen.cubic c₁ c₂ p).2.StandsAt s := by
  refine ⟨_, rfl, rfl, ?_, nofun⟩
  rintro _ ⟨⟩
  exact ⟨c₁, p, rfl⟩

omit [Scalar α] in
lemma exists_standsAt_quadratic (pen : Pen α) (c p : Point α) :
    ∃ s, (pen.quadratic c p).1.getLast? = some s ∧ (pen.quadratic c p).2.StandsAt s := by
  refine ⟨_, rfl, rfl, nofun, ?_⟩
  rintro _ ⟨⟩
  exact ⟨p, rfl⟩

/-- After any command the pen stands at the last of the segments that it drew. -/
lemma exists_standsAt (pen : Pen α) (c : Command α) :
    ∃ s, (pen.draw c).1.getLast? = some s ∧ (pen.draw c).2.StandsAt s := by
  cases c with
  | moveTo r p => exact ⟨_, rfl, rfl, nofun, nofun⟩
  | lineTo | horizontalTo | verticalTo => exact ⟨_, rfl, standsAt_goTo rfl⟩
  | cubicTo | smoothCubicTo => exact pen.exists_standsAt_cubic _ _ _
  | quadraticTo | smoothQuadraticTo => exact pen.exists_standsAt_quadratic _ _
  | arcTo r arc p =>
    obtain ⟨s, hlast, hfinish⟩ := arc.getLast?_segments pen.current (pen.resolve r p)
    exact ⟨s, hlast, standsAt_goTo hfinish⟩
  | close => exact ⟨_, rfl, rfl, nofun, nofun⟩

/-! ### All commands -/

/-- The pen after some commands, and the segments that these drew, by what is last among them. -/
structure InStep (cs : List (Command α)) (segments : List (Segment α)) (pen : Pen α) : Prop where
  /-- Without a move the outline begins at the origin. -/
  start_origin : (∀ c ∈ cs, c.verb ≠ .move) → pen.start = Point.origin
  /-- With one it begins where the last move led. -/
  start_move : ∀ before r p after, cs = before ++ .moveTo r p :: after →
    (∀ c ∈ after, c.verb ≠ .move) → pen.start = (initial.drawAll before).2.resolve r p
  current_origin : segments = [] → pen.current = Point.origin
  /-- The pen is where the last segment ends, or where the outline began if that one is a close. -/
  current : ∀ s ∈ segments.getLast?, pen.current = s.finish?.getD pen.start
  isSome_lastCubic : pen.lastCubic.isSome ↔ ∃ c ∈ cs.getLast?, c.verb ∈ [Verb.cubic, .smoothCubic]
  lastCubic : ∀ c ∈ pen.lastCubic, ∃ c₁ p, segments.getLast? = some (.cubic c₁ c p)
  isSome_lastQuadratic :
    pen.lastQuadratic.isSome ↔ ∃ c ∈ cs.getLast?, c.verb ∈ [Verb.quadratic, .smoothQuadratic]
  lastQuadratic : ∀ c ∈ pen.lastQuadratic, ∃ p, segments.getLast? = some (.quadratic c p)

lemma inStep_initial : InStep [] [] (initial : Pen α) where
  start_origin _ := rfl
  start_move before r p after h := by simp at h
  current_origin _ := rfl
  current := nofun
  isSome_lastCubic := by simp [initial]
  lastCubic := nofun
  isSome_lastQuadratic := by simp [initial]
  lastQuadratic := nofun

omit [Scalar α] in
/-- The last move of a longer list is the command added, or the last move before it. -/
lemma eq_of_snoc_eq_append_moveTo {c : Command α} {before after : List (Command α)} {r : Bool}
    {p : Point α} (h : cs ++ [c] = before ++ .moveTo r p :: after) :
    (cs = before ∧ c = .moveTo r p) ∨
      ∃ rest, after = rest ++ [c] ∧ cs = before ++ .moveTo r p :: rest := by
  rcases List.eq_nil_or_concat after with rfl | ⟨rest, d, rfl⟩
  · exact Or.inl (by simpa using List.append_inj' h rfl)
  · rw [List.concat_eq_append, ← List.cons_append, ← List.append_assoc] at h
    obtain ⟨hcs, hlast⟩ := List.append_inj' h rfl
    obtain rfl : c = d := by simpa using hlast
    exact Or.inr ⟨rest, List.concat_eq_append, hcs⟩

/-- One more command keeps the pen in step with the segments. -/
lemma InStep.draw {segments : List (Segment α)} (h : InStep cs segments pen)
    (hpen : pen = (initial.drawAll cs).2) (c : Command α) :
    InStep (cs ++ [c]) (segments ++ (pen.draw c).1) (pen.draw c).2 := by
  obtain ⟨s, hs, hstands⟩ := pen.exists_standsAt c
  have hlast : (segments ++ (pen.draw c).1).getLast? = some s := by
    rw [List.getLast?_append, hs, Option.some_or]
  constructor
  case start_origin =>
    intro hmoves
    have hc : c.verb ≠ .move := hmoves c (by simp)
    rw [pen.start_draw hc]
    exact h.start_origin fun d hd => hmoves d (List.mem_append_left _ hd)
  case start_move =>
    intro before r p after heq hmoves
    -- The last move is the command itself, or it was made before.
    rcases eq_of_snoc_eq_append_moveTo heq with ⟨rfl, rfl⟩ | ⟨rest, rfl, rfl⟩
    · rw [← hpen]
      rfl
    · rw [pen.start_draw (hmoves c (by simp))]
      exact h.start_move before r p rest rfl fun d hd => hmoves d (List.mem_append_left _ hd)
  case current_origin =>
    intro hnil
    rw [hnil] at hlast
    contradiction
  case current =>
    rw [hlast]
    rintro _ ⟨⟩
    exact hstands.current
  case isSome_lastCubic => simpa using pen.isSome_lastCubic_draw c
  case lastCubic =>
    intro k hk
    obtain ⟨c₁, p, rfl⟩ := hstands.lastCubic k hk
    exact ⟨c₁, p, hlast⟩
  case isSome_lastQuadratic => simpa using pen.isSome_lastQuadratic_draw c
  case lastQuadratic =>
    intro k hk
    obtain ⟨p, rfl⟩ := hstands.lastQuadratic k hk
    exact ⟨p, hlast⟩

lemma inStep_drawAll (cs : List (Command α)) :
    InStep cs (initial.drawAll cs).1 (initial.drawAll cs).2 := by
  induction cs using List.reverseRecOn with
  | nil => exact inStep_initial
  | append_singleton cs c ih =>
    rw [drawAll_append]
    simpa [drawAll] using ih.draw rfl c

/-- The segments that one command adds, from any pen on. -/
structure Adds (pen : Pen α) (c : Command α) : Prop where
  one : c.verb ≠ .arc → ∃ s, (pen.draw c).1 = [s]
  arc : ∀ r arc p, c = .arcTo r arc p →
    ∃ s, (pen.draw c).1.getLast? = some s ∧ s.finish? = some (pen.resolve r p)

lemma adds (pen : Pen α) (c : Command α) : pen.Adds c where
  one h := List.length_eq_one_iff.mp (pen.length_draw h)
  arc := by
    rintro r arc p rfl
    exact arc.getLast?_segments pen.current (pen.resolve r p)

/-- After each prefix of a list of commands the pen is in step with the segments drawn so far, which are
those that the whole list begins with. The next command adds one segment, or is an arc whose last segment
ends where it leads. -/
theorem inStep_of_prefix (cs rest : List (Command α)) :
    InStep cs (initial.drawAll cs).1 (initial.drawAll cs).2
    ∧ (initial.drawAll cs).1 <+: Outline.ofCommands (cs ++ rest)
    ∧ ∀ c, (initial.drawAll (cs ++ [c])).1 =
          (initial.drawAll cs).1 ++ ((initial.drawAll cs).2.draw c).1
        ∧ (initial.drawAll cs).2.Adds c := by
  refine ⟨inStep_drawAll cs, ?_, fun c => ⟨?_, adds _ c⟩⟩
  · rw [Outline.ofCommands, drawAll_append]
    exact List.prefix_append _ _
  · rw [drawAll_append]
    simp [drawAll]

end Pen

end Iconsmith
