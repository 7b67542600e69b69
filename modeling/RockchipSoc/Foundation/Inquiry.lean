import RockchipSoc.Foundation.CheckedArith

/-!
# Programs that inquire

A driver reads its hardware in the middle of a computation and goes on with whatever it is answered.
Such a program is a tree: it is done, it asks a question and goes on with the answer, it comes to an
operation that is not defined, or it runs for ever.  A property is ensured where it holds of every
result, whatever the answers, and no operation on the way is undefined.  Programs that return at
once are compared by what they return.
-/

/-- A program over questions `Q` that are answered in `A`. -/
inductive Inquiry (Q : Type) (A : Q → Type) (α : Type) : Type
  | done (value : α)
  | undefined
  | forever
  | ask (question : Q) (next : A question → Inquiry Q A α)

namespace Inquiry

open CheckedDiv

variable {Q : Type} {A : Q → Type} {α β : Type}

protected def bind : Inquiry Q A α → (α → Inquiry Q A β) → Inquiry Q A β
  | done value, next => next value
  | undefined, _ => undefined
  | forever, _ => forever
  | ask question answered, next => ask question fun answer => (answered answer).bind next

instance : Monad (Inquiry Q A) where
  pure := done
  bind := Inquiry.bind

/-- The answer to a question. -/
def query (question : Q) : Inquiry Q A (A question) := ask question done

/-- A partial operation. -/
def ofOption : Option α → Inquiry Q A α
  | none => undefined
  | some value => done value

section Arithmetic

variable [Zero α] [DecidableEq α]

def divide [Div α] (dividend divisor : α) : Inquiry Q A α := ofOption (div? dividend divisor)

def remainder [Mod α] (dividend divisor : α) : Inquiry Q A α :=
  if divisor = 0 then undefined else done (dividend % divisor)

end Arithmetic

/-! ## What is ensured -/

variable {allowed : (question : Q) → A question → Prop} {post post' : α → Prop} {final : β → Prop}
  {program : Inquiry Q A α} {next : α → Inquiry Q A β}

/-- After allowed answers every result has a property, and nothing undefined was done. -/
def Ensures (allowed : (question : Q) → A question → Prop) (post : α → Prop) :
    Inquiry Q A α → Prop
  | done value => post value
  | undefined => False
  | forever => True
  | ask question next => ∀ answer, allowed question answer → Ensures allowed post (next answer)

/-- After allowed answers nothing undefined is done. -/
def Defined (allowed : (question : Q) → A question → Prop) (program : Inquiry Q A α) : Prop :=
  Ensures allowed (fun _ => True) program

theorem Ensures.imp (ensures : Ensures allowed post program)
    (weaker : ∀ value, post value → post' value) : Ensures allowed post' program := by
  induction program with
  | done value => exact weaker value ensures
  | undefined => exact ensures
  | forever => trivial
  | ask question next ih => exact fun answer answers => ih answer (ensures answer answers)

/-- The rule of sequence. -/
theorem Ensures.bind (first : Ensures allowed post program)
    (rest : ∀ value, post value → Ensures allowed final (next value)) :
    Ensures allowed final (program >>= next) := by
  induction program with
  | done value => exact rest value first
  | undefined => exact first
  | forever => trivial
  | ask question answered ih => exact fun answer answers => ih answer (first answer answers)

/-- The rule of choice. -/
theorem Ensures.ite {condition : Prop} [Decidable condition] {program' : Inquiry Q A α}
    (yes : condition → Ensures allowed post program)
    (no : ¬condition → Ensures allowed post program') :
    Ensures allowed post (if condition then program else program') := by
  split
  · next holds => exact yes holds
  · next fails => exact no fails

theorem Defined.bind (first : Defined allowed program)
    (rest : ∀ value, Ensures allowed final (next value)) :
    Ensures allowed final (program >>= next) :=
  Ensures.bind first fun value _ => rest value

theorem defined_pure (value : α) : Defined allowed (pure value : Inquiry Q A α) := trivial

theorem Defined.map (defined : Defined allowed program) (value : α → β) :
    Defined allowed (value <$> program) := defined.bind fun result => defined_pure (value result)

theorem ensures_query (question : Q) :
    Ensures allowed (allowed question) (query question : Inquiry Q A (A question)) :=
  fun _ answers => answers

theorem defined_query (question : Q) :
    Defined allowed (query question : Inquiry Q A (A question)) := fun _ _ => trivial

theorem divide_of_ne [Zero α] [DecidableEq α] [Div α] {dividend divisor : α}
    (nonzero : divisor ≠ 0) :
    (divide dividend divisor : Inquiry Q A α) = pure (dividend / divisor) := by
  rw [divide, div?_of_ne nonzero]
  rfl

theorem ensures_divide [Zero α] [DecidableEq α] [Div α] {dividend divisor : α}
    (nonzero : divisor ≠ 0) :
    Ensures allowed (· = dividend / divisor) (divide dividend divisor : Inquiry Q A α) := by
  rw [divide_of_ne nonzero]
  rfl

theorem defined_divide [Zero α] [DecidableEq α] [Div α] {dividend divisor : α}
    (nonzero : divisor ≠ 0) : Defined allowed (divide dividend divisor : Inquiry Q A α) :=
  (ensures_divide nonzero).imp fun _ _ => trivial

theorem defined_remainder [Zero α] [DecidableEq α] [Mod α] {dividend divisor : α}
    (nonzero : divisor ≠ 0) : Defined allowed (remainder dividend divisor : Inquiry Q A α) := by
  rw [remainder, if_neg nonzero]
  trivial

/-! ## Two results compared -/

section Order

variable [LE α]

/-- Both programs return, and the first returns no more than the second. -/
def AtMost (program program' : Inquiry Q A α) : Prop :=
  ∃ x y, program = pure x ∧ program' = pure y ∧ x ≤ y

theorem atMost_pure {x y : α} : AtMost (pure x : Inquiry Q A α) (pure y) ↔ x ≤ y := by
  constructor
  · rintro ⟨_, _, left, right, le⟩
    rwa [done.inj left, done.inj right]
  · exact fun le => ⟨x, y, rfl, rfl, le⟩

theorem AtMost.trans [Std.IsPreorder α] {program' program'' : Inquiry Q A α}
    (left : AtMost program program') (right : AtMost program' program'') :
    AtMost program program'' := by
  obtain ⟨x, y, rfl, rfl, le⟩ := left
  obtain ⟨y', z, same, rfl, le'⟩ := right
  rw [← done.inj same] at le'
  exact atMost_pure.mpr (Std.le_trans le le')

end Order

/-! ## One way of answering -/

/-- Whether a program comes to an undefined operation with the given answers. -/
def fails (answers : (question : Q) → A question) : Inquiry Q A α → Bool
  | done _ => false
  | undefined => true
  | forever => false
  | ask question next => (next (answers question)).fails answers

theorem Ensures.fails_eq_false (ensures : Ensures allowed post program)
    {answers : (question : Q) → A question}
    (answered : ∀ question, allowed question (answers question)) :
    program.fails answers = false := by
  induction program with
  | done value => rfl
  | undefined => exact ensures.elim
  | forever => rfl
  | ask question next ih => exact ih _ (ensures _ (answered question))

end Inquiry
