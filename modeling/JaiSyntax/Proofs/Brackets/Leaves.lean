import JaiSyntax.Proofs.Brackets.Passing
import JaiSyntax.Proofs.Layout.Hidden
import JaiSyntax.Proofs.Reading.Continuation
/-!
The brackets that a segment has read. Its leaves hold the brackets of the tokens that it has passed and
no others: words become keywords, which are no brackets either, and extras hold none.
-/

set_option autoImplicit false

namespace JaiSyntax

def bracketsOf (tokens : List Token) : List TokenKind :=
  (tokens.map Token.kind).filter TokenKind.isBracket

@[simp] theorem bracketsOf_append (front back : List Token) :
    bracketsOf (front ++ back) = bracketsOf front ++ bracketsOf back := by
  simp [bracketsOf]

theorem bracketsOf_eq_nil {tokens : List Token}
    (plain : ∀ token ∈ tokens, token.kind.isBracket = false) : bracketsOf tokens = [] := by
  refine List.filter_eq_nil_iff.mpr (fun kind member => ?_)
  obtain ⟨token, listed, rfl⟩ := List.mem_map.mp member
  exact Bool.eq_false_iff.mp (plain token listed)

/-- Tokens that are kept have the same brackets. -/
theorem KeptTokens.brackets {tokens kept : List Token} (same : KeptTokens tokens kept) :
    bracketsOf kept = bracketsOf tokens := by
  induction same with
  | nil => rfl
  | @cons token other tokens kept one _ ih =>
      have single : bracketsOf [other] = bracketsOf [token] := by
        rcases one with rfl | ⟨word, rfl⟩
        · rfl
        · have plain : bracketsOf [token] = [] :=
            bracketsOf_eq_nil (List.forall_mem_singleton.mpr (by rw [word]; rfl))
          rw [plain]
          rfl
      rw [← List.singleton_append, bracketsOf_append, single, ih, ← bracketsOf_append]
      rfl

/-! ### Extras -/

/-- Whether the extras of a cursor hold no brackets. -/
structure TokenCursor.PlainGaps (cursor : TokenCursor) : Prop where
  gap : bracketsOf (tokensOfExtras cursor.gap) = []
  gaps : ∀ stop ∈ cursor.ahead, bracketsOf (tokensOfExtras stop.gap) = []

namespace TokenCursor.PlainGaps

variable {cursor : TokenCursor}

theorem withoutGap (plain : cursor.PlainGaps) : PlainGaps { cursor with gap := [] } :=
  ⟨rfl, plain.gaps⟩

theorem advance (plain : cursor.PlainGaps) : cursor.advance.2.PlainGaps := by
  rcases cursor with ⟨gap, ahead, position, previous, endOfFile⟩
  cases ahead with
  | nil => exact plain
  | cons stop rest => exact ⟨plain.gaps stop List.mem_cons_self,
      fun other member => plain.gaps other (List.mem_cons_of_mem stop member)⟩

/-- The brackets that are still to be read are those ahead. -/
theorem brackets (plain : cursor.PlainGaps) :
    bracketsOf cursor.tokens = bracketsOf (cursor.ahead.map Stop.token) := by
  have stops {ahead : List Stop} (gaps : ∀ stop ∈ ahead, bracketsOf (tokensOfExtras stop.gap) = []) :
      bracketsOf (ahead.flatMap Stop.tokens) = bracketsOf (ahead.map Stop.token) := by
    induction ahead with
    | nil => rfl
    | cons stop rest ih =>
        obtain ⟨first, further⟩ := List.forall_mem_cons.mp gaps
        rw [List.flatMap_cons, bracketsOf_append, ih further, List.map_cons,
          ← List.singleton_append, bracketsOf_append, Stop.tokens, ← List.singleton_append,
          bracketsOf_append, first, List.append_nil]
  rw [TokenCursor.tokens, bracketsOf_append, plain.gap, List.nil_append, stops plain.gaps]

end TokenCursor.PlainGaps

/-- A hidden token is no bracket. -/
theorem IsHidden.plain {counts : Token → Prop} {tokens : List Token} {token : Token}
    (hidden : IsHidden counts tokens token) : token.kind.isBracket = false := by
  cases hidden with
  | extra _ layout =>
      cases same : token.kind <;> first | rfl | (rw [same] at layout; cases layout)
  | directive _ deprecation =>
      rw [isDeprecation_kind deprecation]
      rfl
  | message _ _ announced listed =>
      have inside := announced.spoken
      cases inside with
      | literal opens inside closes =>
          rcases List.mem_cons.mp listed with rfl | further
          · rw [opens]
            rfl
          rcases List.mem_append.mp further with piece | last
          · rcases Bool.or_eq_true_iff.mp (inside token piece) with content | escape
            · rw [eq_of_beq content]
              rfl
            · rw [eq_of_beq escape]
              rfl
          · rw [List.mem_singleton.mp last, closes]
            rfl
      | invalid error _ =>
          rw [List.mem_singleton.mp listed, error]
          rfl

/-- The extras of a source hold no brackets. -/
theorem initial_plainGaps (source : List Char) :
    (Segment.initial (utf8Length source) (lex source).tokens).cursor.PlainGaps := by
  have plain (token : Token)
      (member : token ∈ extraTokens (partTokens (lex source).tokens (lex source).tokens)) :
      token.kind.isBracket = false :=
    ((mem_extraTokens_iff (lex_settled source) (Nat.le_refl _)).mp member).plain
  refine ⟨bracketsOf_eq_nil (fun token member => ?_), fun stop listed =>
    bracketsOf_eq_nil (fun token member => ?_)⟩
  · exact plain token (List.mem_append_left _ member)
  · exact plain token (List.mem_append_right _ (List.mem_flatMap.mpr ⟨stop, listed, member⟩))

/-! ### Segments -/

namespace Segment

variable {earlier later : Segment}

theorem plainGaps_bumpAs {segment : Segment} (plain : segment.cursor.PlainGaps)
    (change : Token → Token) : (segment.bumpAs change).cursor.PlainGaps := by
  rw [cursor_bumpAs]
  split
  · exact plain.withoutGap
  · exact plain.withoutGap.advance

/-- The kinds of the tokens ahead, where those that were passed come first. -/
theorem kindAt_of_ahead {passed : List Stop}
    (ahead : earlier.cursor.ahead = passed ++ later.cursor.ahead)
    (endOfFile : later.cursor.endOfFile = earlier.cursor.endOfFile) :
    earlier.kindAt = kindsBefore (passed.map (fun stop => stop.token.kind)) later.kindAt := by
  funext distance
  rw [kindAt, TokenCursor.peek, ahead, ← endOfFile]
  clear ahead
  induction passed generalizing distance with
  | nil => rfl
  | cons stop passed ih =>
      cases distance with
      | zero => rfl
      | succ distance => exact ih distance

theorem ahead_bump {segment : Segment} (proper : segment.cursor.Proper)
    (more : segment.cursor.isAtEnd = false) :
    ∃ stop, segment.cursor.ahead = stop :: segment.bump.cursor.ahead ∧
      stop.token = segment.cursor.current := by
  obtain ⟨stop, rest, ahead, advanced⟩ := proper.withoutGap.advance_eq more
  change segment.cursor.ahead = stop :: rest at ahead
  refine ⟨stop, ?_, ?_⟩
  · rw [bump, cursor_bumpAs, more, ahead]
    simp [advanced]
  · simp [TokenCursor.current, TokenCursor.peek, ahead]

/-- The brackets that were read in a segment that started without any children. -/
theorem Continues.brackets (continues : earlier.Continues later) (none : earlier.latest = [])
    (plain : earlier.cursor.PlainGaps) (plainLater : later.cursor.PlainGaps) {passed : List Stop}
    (ahead : earlier.cursor.ahead = passed ++ later.cursor.ahead) :
    bracketsOf (Child.leavesOfList later.latest.reverse) = bracketsOf (passed.map Stop.token) := by
  have kept := continues.tokens.brackets
  rw [Segment.tokens, Segment.tokens, none, bracketsOf_append, bracketsOf_append, plain.brackets,
    plainLater.brackets, ahead, List.map_append, bracketsOf_append] at kept
  exact List.append_cancel_right kept

end Segment

end JaiSyntax
