import Iconsmith.Outline.Replay
import Mathlib.Tactic

/-!
# Explicit commands

What a command draws depends on the commands before it: on the point where they end and, for a smooth
command, on the control point of the last one. Both are read off the commands themselves here, without
a pen. The explicit form of a command has them filled in. It draws the same segments and leaves the
pen in the same state, so it can stand in for the command anywhere in a list.
-/

namespace Iconsmith

/-- A command is explicit if it is absolute, and neither smooth nor along an axis. -/
def Command.IsExplicit {α : Type} (c : Command α) : Prop :=
  c.isRelative = false ∧ c.verb ∈ [Verb.move, .line, .cubic, .quadratic, .arc, .close]

variable {α : Type} [Scalar α]

namespace Outline

/-! ### What commands lead to -/

/-- Where some commands have led: the point where they end, and the point that a close leads to. -/
structure Whereabouts (α : Type) where
  current : Point α
  start : Point α

namespace Whereabouts

/-- A point in absolute coordinates. -/
def absolute (w : Whereabouts α) (relative : Bool) (p : Point α) : Point α :=
  if relative then w.current + p else p

/-- The point of a horizontal line. -/
def across (w : Whereabouts α) (relative : Bool) (x : α) : Point α :=
  ⟨if relative then w.current.x + x else x, w.current.y⟩

/-- The point of a vertical line. -/
def along (w : Whereabouts α) (relative : Bool) (y : α) : Point α :=
  ⟨w.current.x, if relative then w.current.y + y else y⟩

/-- The control point of a smooth curve: the one before it mirrored at the current point, or else
the current point. -/
def mirrored (w : Whereabouts α) : Option (Point α) → Point α
  | some c => w.current.reflect c
  | none => w.current

/-- Where one more command leads. -/
def next (w : Whereabouts α) : Command α → Whereabouts α
  | .moveTo r p => ⟨w.absolute r p, w.absolute r p⟩
  | .lineTo r p => ⟨w.absolute r p, w.start⟩
  | .horizontalTo r x => ⟨w.across r x, w.start⟩
  | .verticalTo r y => ⟨w.along r y, w.start⟩
  | .cubicTo r _ _ p => ⟨w.absolute r p, w.start⟩
  | .smoothCubicTo r _ p => ⟨w.absolute r p, w.start⟩
  | .quadraticTo r _ p => ⟨w.absolute r p, w.start⟩
  | .smoothQuadraticTo r p => ⟨w.absolute r p, w.start⟩
  | .arcTo r _ p => ⟨w.absolute r p, w.start⟩
  | .close => ⟨w.start, w.start⟩

end Whereabouts

/-- Where a history of commands has led, from the origin. The last command comes first. -/
def whereabouts : List (Command α) → Whereabouts α
  | [] => ⟨Point.origin, Point.origin⟩
  | c :: history => (whereabouts history).next c

/-- The second control point of the last command of a history, if that draws a cubic curve. -/
def cubicControl? : List (Command α) → Option (Point α)
  | .cubicTo r _ c _ :: history => some ((whereabouts history).absolute r c)
  | .smoothCubicTo r c _ :: history => some ((whereabouts history).absolute r c)
  | _ => none

/-- The control point of the last command of a history, if that draws a quadratic curve. -/
def quadraticControl? : List (Command α) → Option (Point α)
  | .quadraticTo r c _ :: history => some ((whereabouts history).absolute r c)
  | .smoothQuadraticTo _ _ :: history =>
    some ((whereabouts history).mirrored (quadraticControl? history))
  | _ => none

/-- The form of a command that depends on no command before it, except for the start of an arc and
the end of a close. -/
def explicit (history : List (Command α)) : Command α → Command α
  | .moveTo r p => .moveTo false ((whereabouts history).absolute r p)
  | .lineTo r p => .lineTo false ((whereabouts history).absolute r p)
  | .horizontalTo r x => .lineTo false ((whereabouts history).across r x)
  | .verticalTo r y => .lineTo false ((whereabouts history).along r y)
  | .cubicTo r c₁ c₂ p =>
    .cubicTo false ((whereabouts history).absolute r c₁) ((whereabouts history).absolute r c₂)
      ((whereabouts history).absolute r p)
  | .smoothCubicTo r c₂ p =>
    .cubicTo false ((whereabouts history).mirrored (cubicControl? history))
      ((whereabouts history).absolute r c₂) ((whereabouts history).absolute r p)
  | .quadraticTo r c p =>
    .quadraticTo false ((whereabouts history).absolute r c) ((whereabouts history).absolute r p)
  | .smoothQuadraticTo r p =>
    .quadraticTo false ((whereabouts history).mirrored (quadraticControl? history))
      ((whereabouts history).absolute r p)
  | .arcTo r arc p => .arcTo false arc ((whereabouts history).absolute r p)
  | .close => .close

lemma isExplicit_explicit (history : List (Command α)) (c : Command α) :
    (explicit history c).IsExplicit := by
  cases c <;> simp [explicit, Command.IsExplicit, Command.isRelative, Command.verb]

end Outline

namespace Pen

open Outline

/-! ### Pens after a history -/

/-- A pen knows where its history has led, and the control point of the last command. -/
structure Recalls (pen : Pen α) (history : List (Command α)) : Prop where
  current : pen.current = (whereabouts history).current
  start : pen.start = (whereabouts history).start
  lastCubic : pen.lastCubic = cubicControl? history
  lastQuadratic : pen.lastQuadratic = quadraticControl? history

lemma recalls_initial : (initial : Pen α).Recalls [] :=
  ⟨rfl, rfl, rfl, rfl⟩

variable {pen : Pen α} {history : List (Command α)}

lemma Recalls.resolve (h : pen.Recalls history) (relative : Bool) (p : Point α) :
    pen.resolve relative p = (whereabouts history).absolute relative p := by
  rw [Pen.resolve, Whereabouts.absolute, h.current]

lemma Recalls.smoothControl (h : pen.Recalls history) (last : Option (Point α)) :
    pen.smoothControl last = (whereabouts history).mirrored last := by
  cases last with
  | none => exact h.current
  | some c => rw [Pen.smoothControl, Whereabouts.mirrored, h.current]

/-- After one more command the pen knows of that command too. -/
lemma Recalls.draw (h : pen.Recalls history) (c : Command α) :
    (pen.draw c).2.Recalls (c :: history) := by
  cases c with
  | moveTo r p => exact ⟨h.resolve r p, h.resolve r p, rfl, rfl⟩
  | lineTo r p => exact ⟨h.resolve r p, h.start, rfl, rfl⟩
  | horizontalTo r x =>
    refine ⟨?_, h.start, rfl, rfl⟩
    simp only [Pen.draw, Pen.line, Pen.goTo, whereabouts, Whereabouts.next, Whereabouts.across,
      h.current]
  | verticalTo r y =>
    refine ⟨?_, h.start, rfl, rfl⟩
    simp only [Pen.draw, Pen.line, Pen.goTo, whereabouts, Whereabouts.next, Whereabouts.along,
      h.current]
  | cubicTo r c₁ c₂ p => exact ⟨h.resolve r p, h.start, congrArg some (h.resolve r c₂), rfl⟩
  | smoothCubicTo r c₂ p => exact ⟨h.resolve r p, h.start, congrArg some (h.resolve r c₂), rfl⟩
  | quadraticTo r c p => exact ⟨h.resolve r p, h.start, rfl, congrArg some (h.resolve r c)⟩
  | smoothQuadraticTo r p =>
    refine ⟨h.resolve r p, h.start, rfl, ?_⟩
    simp only [Pen.draw, Pen.quadratic, quadraticControl?, h.smoothControl, h.lastQuadratic]
  | arcTo r arc p => exact ⟨h.resolve r p, h.start, rfl, rfl⟩
  | close => exact ⟨h.start, h.start, rfl, rfl⟩

lemma drawAll_append (pen : Pen α) (cs ds : List (Command α)) :
    pen.drawAll (cs ++ ds) = ((pen.drawAll cs).1 ++ ((pen.drawAll cs).2.drawAll ds).1,
      ((pen.drawAll cs).2.drawAll ds).2) := by
  induction cs generalizing pen with
  | nil => rfl
  | cons c cs ih => simp [drawAll, ih]

lemma Recalls.drawAll (h : pen.Recalls history) (cs : List (Command α)) :
    (pen.drawAll cs).2.Recalls (cs.reverse ++ history) := by
  induction cs generalizing pen history with
  | nil => exact h
  | cons c cs ih =>
    rw [List.reverse_cons, List.append_assoc]
    exact ih (h.draw c)

/-- The explicit form of a command draws what the command draws, and leaves the same pen. -/
lemma Recalls.draw_explicit (h : pen.Recalls history) (c : Command α) :
    pen.draw (explicit history c) = pen.draw c := by
  cases c with
  | horizontalTo r x =>
    simp only [explicit, Pen.draw, Pen.resolve, Whereabouts.across, h.current, Bool.false_eq_true,
      if_false]
  | verticalTo r y =>
    simp only [explicit, Pen.draw, Pen.resolve, Whereabouts.along, h.current, Bool.false_eq_true,
      if_false]
  | smoothCubicTo r c₂ p =>
    simp only [explicit, Pen.draw, h.resolve, h.smoothControl, h.lastCubic]
    rfl
  | smoothQuadraticTo r p =>
    simp only [explicit, Pen.draw, h.resolve, h.smoothControl, h.lastQuadratic]
    rfl
  | close => rfl
  | moveTo | lineTo | cubicTo | quadraticTo | arcTo =>
    simp only [explicit, Pen.draw, h.resolve]
    rfl

end Pen

namespace Outline

/-- Any command of a list can be replaced by its explicit form: it draws the same segments and leaves
the same pen, so that the outline stays the same. -/
theorem ofCommands_explicit (before after : List (Command α)) (c : Command α) :
    (explicit before.reverse c).IsExplicit
    ∧ (Pen.initial.drawAll before).2.draw (explicit before.reverse c)
      = (Pen.initial.drawAll before).2.draw c
    ∧ ofCommands (before ++ explicit before.reverse c :: after) = ofCommands (before ++ c :: after) := by
  have hpen : (Pen.initial.drawAll before).2.Recalls before.reverse := by
    simpa using Pen.recalls_initial.drawAll before
  have hdraw := hpen.draw_explicit c
  refine ⟨isExplicit_explicit before.reverse c, hdraw, ?_⟩
  rw [ofCommands, ofCommands, Pen.drawAll_append, Pen.drawAll_append, Pen.drawAll, Pen.drawAll, hdraw]

/-- A cubic curve leaves nothing that a smooth quadratic curve could mirror. -/
example (c₁ c₂ p q : Point α) :
    explicit [.cubicTo false c₁ c₂ p] (.smoothQuadraticTo false q) = .quadraticTo false p q := rfl

end Outline

end Iconsmith
