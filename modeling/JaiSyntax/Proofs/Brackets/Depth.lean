import JaiSyntax.Production.Primary
/-!
Brackets by depth. The look for a quick procedure counts brackets and does not match them: any closer
takes back the opener before it. Tokens that leave as many brackets open as were open before are passed
by that look as one.
-/

set_option autoImplicit false

namespace JaiSyntax

namespace TokenKind

def opens : TokenKind → Bool
  | .lParen | .lBracket | .lBrace => true
  | _ => false

def closes : TokenKind → Bool
  | .rParen | .rBracket | .rBrace => true
  | _ => false

def isBracket (kind : TokenKind) : Bool := kind.opens || kind.closes

end TokenKind

/-- How many brackets are open after a token, if `depth` are open before it. It closes none that is not
open. -/
def bracketStep (depth : Nat) (kind : TokenKind) : Option Nat :=
  if kind.opens then some (depth + 1)
  else if kind.closes then
    match depth with
    | 0 => none
    | outer + 1 => some outer
  else some depth

def openAfter (depth : Nat) (kinds : List TokenKind) : Option Nat := kinds.foldlM bracketStep depth

/-- Whether some tokens close just the brackets that they open. -/
def Balanced (kinds : List TokenKind) : Prop := openAfter 0 kinds = some 0

instance (kinds : List TokenKind) : Decidable (Balanced kinds) :=
  inferInstanceAs (Decidable (openAfter 0 kinds = some 0))

variable {depth final : Nat} {kind : TokenKind} {kinds front back : List TokenKind}

theorem bracketStep_plain (plain : kind.isBracket = false) (depth : Nat) :
    bracketStep depth kind = some depth := by
  obtain ⟨opens, closes⟩ := Bool.or_eq_false_iff.mp plain
  simp [bracketStep, opens, closes]

theorem bracketStep_add (step : bracketStep depth kind = some final) (more : Nat) :
    bracketStep (depth + more) kind = some (final + more) := by
  unfold bracketStep at step ⊢
  split at step
  · next opens =>
      cases step
      rw [if_pos opens]
      exact congrArg some (by omega)
  · next other =>
      rw [if_neg other]
      split at step
      · next closes =>
          rw [if_pos closes]
          cases depth with
          | zero => cases step
          | succ outer =>
              cases step
              rw [Nat.add_right_comm]
      · next plain =>
          cases step
          rw [if_neg plain]

@[simp] theorem openAfter_nil (depth : Nat) : openAfter depth [] = some depth := rfl

theorem openAfter_cons (depth : Nat) (kind : TokenKind) (rest : List TokenKind) :
    openAfter depth (kind :: rest) = (bracketStep depth kind).bind (openAfter · rest) := rfl

theorem openAfter_append (depth : Nat) (front back : List TokenKind) :
    openAfter depth (front ++ back) = (openAfter depth front).bind (openAfter · back) :=
  List.foldlM_append

theorem openAfter_add (opened : openAfter depth kinds = some final) (more : Nat) :
    openAfter (depth + more) kinds = some (final + more) := by
  induction kinds generalizing depth with
  | nil =>
      cases opened
      rfl
  | cons kind rest ih =>
      rw [openAfter_cons] at opened ⊢
      obtain ⟨middle, step, further⟩ := Option.bind_eq_some_iff.mp opened
      rw [bracketStep_add step more]
      exact ih further

/-- Only brackets count. -/
theorem openAfter_filter (depth : Nat) (kinds : List TokenKind) :
    openAfter depth (kinds.filter TokenKind.isBracket) = openAfter depth kinds := by
  induction kinds generalizing depth with
  | nil => rfl
  | cons kind rest ih =>
      rw [openAfter_cons]
      cases bracket : kind.isBracket with
      | true =>
          rw [List.filter_cons_of_pos bracket, openAfter_cons]
          exact congrArg _ (funext ih)
      | false =>
          rw [List.filter_cons_of_neg (Bool.eq_false_iff.mp bracket), bracketStep_plain bracket, ih]
          rfl

theorem balanced_nil : Balanced [] := rfl

theorem balanced_single (plain : kind.isBracket = false) : Balanced [kind] := by
  rw [Balanced, openAfter_cons, bracketStep_plain plain]
  rfl

/-- Balanced tokens leave as many brackets open as were open before. -/
theorem Balanced.openAfter_eq (balanced : Balanced kinds) (depth : Nat) :
    openAfter depth kinds = some depth := by
  have added := openAfter_add balanced depth
  rwa [Nat.zero_add] at added

theorem Balanced.append (first : Balanced front) (second : Balanced back) :
    Balanced (front ++ back) := by
  rw [Balanced, openAfter_append, first, Option.bind_some, second]

/-! ### The look -/

/-- The kinds of tokens by distance, where some come before the rest. -/
def kindsBefore (kinds : List TokenKind) (rest : Nat → TokenKind) (distance : Nat) : TokenKind :=
  match kinds, distance with
  | [], distance => rest distance
  | kind :: _, 0 => kind
  | _ :: kinds, distance + 1 => kindsBefore kinds rest distance

@[simp] theorem kindsBefore_cons_succ (kind : TokenKind) (kinds : List TokenKind)
    (rest : Nat → TokenKind) (distance : Nat) :
    kindsBefore (kind :: kinds) rest (distance + 1) = kindsBefore kinds rest distance := rfl

theorem kindsBefore_append (front back : List TokenKind) (rest : Nat → TokenKind) :
    kindsBefore (front ++ back) rest = kindsBefore front (kindsBefore back rest) := by
  induction front with
  | nil => rfl
  | cons kind front ih =>
      funext distance
      cases distance with
      | zero => rfl
      | succ distance => exact congrFun ih distance

theorem closesBeforeArrow_add (kindAt : Nat → TokenKind) (budget depth distance more : Nat) :
    closesBeforeArrow kindAt budget depth (distance + more) =
      closesBeforeArrow (fun place => kindAt (place + more)) budget depth distance := by
  induction budget generalizing depth distance with
  | zero => rfl
  | succ budget ih =>
      have next : distance + more + 1 = distance + 1 + more := by omega
      unfold closesBeforeArrow
      simp only [next, ih]

/-- What the look does at a token: it stops at the parenthesis that closes the one before, and counts a
bracket otherwise. -/
theorem closesBeforeArrow_step {kindAt : Nat → TokenKind} {budget : Nat}
    (found : closesBeforeArrow kindAt (budget + 1) depth 0 = true)
    (step : bracketStep depth (kindAt 0) = some final) :
    closesBeforeArrow (fun place => kindAt (place + 1)) budget final 0 = true := by
  rw [← closesBeforeArrow_add]
  unfold closesBeforeArrow at found
  cases depth <;> split at found <;>
    simp_all [bracketStep, TokenKind.opens, TokenKind.closes]

/-- The look passes tokens by the brackets they leave open. -/
theorem closesBeforeArrow_passes {rest : Nat → TokenKind} {budget : Nat}
    (found : closesBeforeArrow (kindsBefore kinds rest) budget depth 0 = true)
    (opened : openAfter depth kinds = some final) :
    ∃ left, closesBeforeArrow rest left final 0 = true := by
  induction kinds generalizing budget depth with
  | nil =>
      cases opened
      exact ⟨budget, found⟩
  | cons kind kinds ih =>
      rw [openAfter_cons] at opened
      obtain ⟨middle, step, further⟩ := Option.bind_eq_some_iff.mp opened
      cases budget with
      | zero => cases found
      | succ budget => exact ih (closesBeforeArrow_step found step) further

/-- Where the tokens between two parentheses are balanced, the look that accepts the first one stops at
the second one: an arrow is behind it. -/
theorem arrow_of_closesBeforeArrow {kindAt rest : Nat → TokenKind} {budget : Nat}
    {opening : TokenKind} (found : closesBeforeArrow kindAt budget 0 1 = true)
    (same : kindAt = kindsBefore (opening :: kinds ++ [.rParen]) rest) (balanced : Balanced kinds) :
    rest 0 = .fatArrow := by
  rw [← Nat.zero_add 1, closesBeforeArrow_add, same, List.cons_append] at found
  simp only [kindsBefore_cons_succ, kindsBefore_append] at found
  obtain ⟨left, closing⟩ := closesBeforeArrow_passes found balanced
  cases left with
  | zero => cases closing
  | succ left => exact eq_of_beq closing

end JaiSyntax
