import JaiSyntax.Proofs.Lexer.Groups
import JaiSyntax.Proofs.Lexer.Tiling
/-!
What the grammar never sees. The significant tokens of a cursor are the tokens of its source without
layout, remarks and deprecation notices. A notice takes the message behind its directive, which is a
literal between quotes, or one invalid token, whatever made it invalid.
-/

set_option autoImplicit false

namespace JaiSyntax

/-! ### Notices -/

/-- The message of a deprecation notice: a literal between quotes, or a token that is invalid in a way
that counts. -/
inductive IsMessage (counts : Token → Prop) : List Token → Prop where
  | literal {opening closing : Token} {pieces : List Token} (opens : opening.kind = .quote)
      (inside : ∀ piece ∈ pieces, isStringPart piece = true) (closes : closing.kind = .quote) :
      IsMessage counts (opening :: (pieces ++ [closing]))
  | invalid {token : Token} (error : token.kind = .error) (counted : counts token) :
      IsMessage counts [token]

structure Announces (counts : Token → Prop) (rest gap message after : List Token) : Prop where
  whole : rest = gap ++ (message ++ after)
  blank : ∀ extra ∈ gap, extra.kind.isExtra = true
  spoken : IsMessage counts message

/-- The tokens that are no part of the grammar: extras, deprecation directives, and messages behind
such directives. -/
inductive IsHidden (counts : Token → Prop) (tokens : List Token) (token : Token) : Prop where
  | extra (listed : token ∈ tokens) (layout : token.kind.isExtra = true)
  | directive (listed : token ∈ tokens) (deprecation : isDeprecation token = true)
  | message {directive : Token} {rest gap message after : List Token}
      (within : directive :: rest <:+ tokens) (deprecation : isDeprecation directive = true)
      (announced : Announces counts rest gap message after) (listed : token ∈ message)

/-- Whether a token is what the lexer made of a string that never closes. -/
def Lexed.IsUnclosedString (lexed : Lexed) (token : Token) : Prop :=
  (⟨token.span, .unterminatedString⟩ : LexError) ∈ lexed.errors

theorem isDeprecation_kind {token : Token} (deprecation : isDeprecation token = true) :
    token.kind = .directive :=
  beq_iff_eq.mp (Bool.and_eq_true_iff.mp deprecation).1

theorem isDeprecation_eq_false {token : Token} (other : token.kind ≠ .directive) :
    isDeprecation token = false :=
  Bool.eq_false_iff.mpr (fun deprecation => other (isDeprecation_kind deprecation))

namespace IsMessage

variable {counts : Token → Prop} {message : List Token}

/-- No token of a message would be hidden on its own. -/
theorem plain (spoken : IsMessage counts message) :
    ∀ token ∈ message, token.kind.isExtra = false ∧ isDeprecation token = false := by
  have quote {token : Token} (kind : token.kind = .quote) :
      token.kind.isExtra = false ∧ isDeprecation token = false :=
    ⟨by rw [kind]; rfl, isDeprecation_eq_false (by rw [kind]; decide)⟩
  cases spoken with
  | literal opens inside closes =>
      refine List.forall_mem_cons.mpr ⟨quote opens, List.forall_mem_append.mpr
        ⟨fun piece member => ⟨(isStringPart_kind (inside piece member)).1, ?_⟩,
          List.forall_mem_singleton.mpr (quote closes)⟩⟩
      refine isDeprecation_eq_false (fun directive => ?_)
      have part := inside piece member
      rw [isStringPart, directive] at part
      cases part
  | invalid error _ =>
      refine List.forall_mem_singleton.mpr ⟨by rw [error]; rfl, isDeprecation_eq_false ?_⟩
      rw [error]
      decide

end IsMessage

/-! ### The length of a notice -/

theorem takeWhile_append_cons {holds : Token → Bool} {front : List Token} (next : Token)
    (rest : List Token) (all : ∀ token ∈ front, holds token = true) (ends : holds next = false) :
    (front ++ next :: rest).takeWhile holds = front := by
  rw [List.takeWhile_append_of_pos all, List.takeWhile_cons_of_neg (by rw [ends]; decide),
    List.append_nil]

/-- A message behind a directive belongs to the notice with the extras before it. -/
theorem Announces.noticeLength_eq {counts : Token → Prop} {rest gap message after : List Token}
    (announced : Announces counts rest gap message after) :
    noticeLength rest = (gap ++ message).length := by
  obtain ⟨rfl, blank, spoken⟩ := announced
  cases spoken with
  | @literal opening closing pieces opens inside closes =>
      have extras := takeWhile_append_cons opening (pieces ++ closing :: after) blank
        (by rw [opens]; rfl)
      have parts := takeWhile_append_cons closing after inside
        (by rw [isStringPart, closes]; rfl)
      have behind : pieces ++ [closing] ++ after = pieces ++ closing :: after := by simp
      simp only [noticeLength, List.cons_append, behind, extras, List.drop_left, opens, parts,
        closes, beq_self_eq_true, if_true]
      simp only [List.length_append, List.length_cons, List.length_nil]
      omega
  | @invalid token error _ =>
      have extras := takeWhile_append_cons token after blank (by rw [error]; rfl)
      have other : (TokenKind.error == TokenKind.quote) = false := rfl
      simp only [noticeLength, List.cons_append, List.nil_append, extras, List.drop_left, error,
        other, beq_self_eq_true, if_true, List.length_append, List.length_cons, List.length_nil]
      rfl

/-- Tokens where the end of the file is the last one and where a quote behind a deprecation directive
opens a literal that closes. -/
structure Settled (tokens : List Token) : Prop where
  last {token : Token} {rest : List Token} (within : token :: rest <:+ tokens)
    (ends : token.kind = .eof) : rest = []
  closes {directive opening : Token} {gap after : List Token}
    (within : directive :: (gap ++ opening :: after) <:+ tokens)
    (deprecation : isDeprecation directive = true)
    (blank : ∀ extra ∈ gap, extra.kind.isExtra = true) (opens : opening.kind = .quote) :
    ∃ pieces closing rest, after = pieces ++ closing :: rest ∧
      (∀ piece ∈ pieces, isStringPart piece = true) ∧ closing.kind = .quote

theorem Settled.of_suffix {tokens later : List Token} (settled : Settled tokens)
    (suffix : later <:+ tokens) : Settled later :=
  ⟨fun within => settled.last (within.trans suffix),
    fun within => settled.closes (within.trans suffix)⟩

/-- What a notice takes behind its directive is a message with the extras before it. -/
theorem Settled.announces {directive : Token} {rest : List Token}
    (settled : Settled (directive :: rest)) (deprecation : isDeprecation directive = true)
    (some : noticeLength rest ≠ 0) :
    ∃ gap message after, Announces (fun _ => True) rest gap message after := by
  have parted : rest.takeWhile (fun token => token.kind.isExtra) ++
      rest.dropWhile (fun token => token.kind.isExtra) = rest := List.takeWhile_append_dropWhile
  have blank : ∀ extra ∈ rest.takeWhile (fun token => token.kind.isExtra),
      extra.kind.isExtra = true := by
    intro extra member
    have layout := List.mem_takeWhile_imp member
    exact layout
  unfold noticeLength at some
  simp only [drop_takeWhile_length] at some
  generalize rest.takeWhile (fun token => token.kind.isExtra) = gap at parted blank some
  generalize rest.dropWhile (fun token => token.kind.isExtra) = behind at parted some
  subst parted
  cases behind with
  | nil => exact (some rfl).elim
  | cons first after =>
      by_cases quote : first.kind = .quote
      · obtain ⟨pieces, closing, later, rfl, inside, closes⟩ :=
          settled.closes List.suffix_rfl deprecation blank quote
        exact ⟨gap, first :: (pieces ++ [closing]), later, by simp, blank,
          .literal quote inside closes⟩
      · by_cases error : first.kind = .error
        · exact ⟨gap, [first], after, rfl, blank, .invalid error trivial⟩
        · simp [quote, error] at some

/-! ### Hidden tokens -/

namespace IsHidden

variable {counts : Token → Prop} {tokens : List Token} {token : Token}

theorem of_suffix {later : List Token} (hidden : IsHidden counts later token)
    (suffix : later <:+ tokens) : IsHidden counts tokens token := by
  cases hidden with
  | extra listed layout => exact .extra (suffix.mem listed) layout
  | directive listed deprecation => exact .directive (suffix.mem listed) deprecation
  | message within deprecation announced listed =>
      exact .message (within.trans suffix) deprecation announced listed

theorem mem (hidden : IsHidden counts tokens token) : token ∈ tokens := by
  cases hidden with
  | extra listed _ => exact listed
  | directive listed _ => exact listed
  | @message directive rest gap message after within _ announced listed =>
      refine within.mem (List.mem_cons_of_mem directive ?_)
      rw [announced.whole]
      exact List.mem_append_right gap (List.mem_append_left after listed)

/-- A token among others is hidden on its own, by a directive in front of it, or further on. -/
theorem cons_iff {first : Token} {rest : List Token} :
    IsHidden counts (first :: rest) token ↔
      (token = first ∧ (first.kind.isExtra = true ∨ isDeprecation first = true)) ∨
      (isDeprecation first = true ∧ ∃ gap message after,
        Announces counts rest gap message after ∧ token ∈ message) ∨
      IsHidden counts rest token := by
  constructor
  · intro hidden
    cases hidden with
    | extra listed layout =>
        rcases List.mem_cons.mp listed with rfl | later
        · exact Or.inl ⟨rfl, Or.inl layout⟩
        · exact Or.inr (Or.inr (.extra later layout))
    | directive listed deprecation =>
        rcases List.mem_cons.mp listed with rfl | later
        · exact Or.inl ⟨rfl, Or.inr deprecation⟩
        · exact Or.inr (Or.inr (.directive later deprecation))
    | message within deprecation announced listed =>
        rcases List.suffix_cons_iff.mp within with same | later
        · obtain ⟨rfl, rfl⟩ := List.cons.inj same
          exact Or.inr (Or.inl ⟨deprecation, _, _, _, announced, listed⟩)
        · exact Or.inr (Or.inr (.message later deprecation announced listed))
  · rintro (⟨rfl, layout | deprecation⟩ | ⟨deprecation, gap, message, after, announced, listed⟩ |
      later)
    · exact .extra List.mem_cons_self layout
    · exact .directive List.mem_cons_self deprecation
    · exact .message List.suffix_rfl deprecation announced listed
    · exact later.of_suffix (List.suffix_cons first rest)

/-- Without a deprecation directive only extras are hidden. -/
theorem append_iff {front rest : List Token} (plain : ∀ first ∈ front, isDeprecation first = false) :
    IsHidden counts (front ++ rest) token ↔
      (token ∈ front ∧ token.kind.isExtra = true) ∨ IsHidden counts rest token := by
  induction front with
  | nil => simp
  | cons first front ih =>
      obtain ⟨own, further⟩ := List.forall_mem_cons.mp plain
      rw [List.cons_append, cons_iff, ih further, own, List.mem_cons]
      constructor
      · rintro (⟨rfl, layout | absurd⟩ | ⟨absurd, -⟩ | ⟨listed, layout⟩ | later)
        · exact Or.inl ⟨Or.inl rfl, layout⟩
        · cases absurd
        · cases absurd
        · exact Or.inl ⟨Or.inr listed, layout⟩
        · exact Or.inr later
      · rintro (⟨rfl | listed, layout⟩ | later)
        · exact Or.inl ⟨rfl, Or.inl layout⟩
        · exact Or.inr (Or.inr (Or.inl ⟨listed, layout⟩))
        · exact Or.inr (Or.inr (Or.inr later))

end IsHidden

theorem isDeprecation_of_isExtra {token : Token} (layout : token.kind.isExtra = true) :
    isDeprecation token = false := by
  refine isDeprecation_eq_false (fun directive => ?_)
  rw [directive] at layout
  cases layout

/-- The tokens behind a deprecation directive: what its notice takes is hidden, and of the rest what is
hidden anyway. -/
theorem hidden_behind_directive {directive : Token} {rest : List Token} (token : Token)
    (settled : Settled (directive :: rest)) (deprecation : isDeprecation directive = true) :
    ((∃ gap message after, Announces (fun _ => True) rest gap message after ∧ token ∈ message) ∨
        IsHidden (fun _ => True) rest token) ↔
      token ∈ rest.take (noticeLength rest) ∨
        IsHidden (fun _ => True) (rest.drop (noticeLength rest)) token := by
  by_cases none : noticeLength rest = 0
  · rw [none, List.take_zero, List.drop_zero]
    constructor
    · rintro (⟨gap, message, after, announced, listed⟩ | later)
      · have length := announced.noticeLength_eq
        rw [none, List.length_append] at length
        rw [List.length_eq_zero_iff.mp (show message.length = 0 by omega)] at listed
        cases listed
      · exact Or.inr later
    · rintro (absurd | later)
      · cases absurd
      · exact Or.inr later
  · obtain ⟨gap, message, after, announced⟩ := settled.announces deprecation none
    have length := announced.noticeLength_eq
    have whole : rest = (gap ++ message) ++ after := by
      rw [announced.whole, List.append_assoc]
    have taken : rest.take (noticeLength rest) = gap ++ message := by
      rw [length, whole, List.take_left]
    have left : rest.drop (noticeLength rest) = after := by
      rw [length, whole, List.drop_left]
    have plain : ∀ first ∈ gap ++ message, isDeprecation first = false :=
      List.forall_mem_append.mpr
        ⟨fun extra member => isDeprecation_of_isExtra (announced.blank extra member),
          fun first member => (announced.spoken.plain first member).2⟩
    have behind : IsHidden (fun _ => True) rest token ↔
        (token ∈ gap ++ message ∧ token.kind.isExtra = true) ∨
          IsHidden (fun _ => True) after token := by
      rw [whole]
      exact IsHidden.append_iff plain
    rw [taken, left, behind, List.mem_append]
    constructor
    · rintro (⟨gap', message', after', announced', listed⟩ | ⟨listed, -⟩ | later)
      · -- Two messages behind one directive are as long as the notice, so they are the same.
        refine Or.inl (List.mem_append.mp ?_)
        rw [← taken, announced'.noticeLength_eq, announced'.whole, ← List.append_assoc,
          List.take_left]
        exact List.mem_append_right gap' listed
      · exact Or.inl listed
      · exact Or.inr later
    · rintro ((layout | listed) | later)
      · exact Or.inr (Or.inl ⟨Or.inl layout, announced.blank token layout⟩)
      · exact Or.inl ⟨gap, message, after, announced, listed⟩
      · exact Or.inr (Or.inr later)

def extraTokens (parts : List Extra × List Stop) : List Token :=
  tokensOfExtras parts.1 ++ parts.2.flatMap (fun stop => tokensOfExtras stop.gap)

theorem mem_extraTokens_iff {bound tokens : List Token} {token : Token} (settled : Settled tokens)
    (enough : tokens.length ≤ bound.length) :
    token ∈ extraTokens (partTokens bound tokens) ↔ IsHidden (fun _ => True) tokens token := by
  induction bound generalizing tokens with
  | nil =>
      rw [List.length_eq_zero_iff.mp (Nat.le_zero.mp enough)]
      exact ⟨fun absurd => (List.not_mem_nil absurd).elim,
        fun hidden => (List.not_mem_nil hidden.mem).elim⟩
  | cons bounding bound ih =>
      cases tokens with
      | nil =>
          exact ⟨fun absurd => (List.not_mem_nil absurd).elim,
            fun hidden => (List.not_mem_nil hidden.mem).elim⟩
      | cons first rest =>
          rw [List.length_cons, List.length_cons] at enough
          have later := settled.of_suffix (List.suffix_cons first rest)
          rw [partTokens, IsHidden.cons_iff]
          split
          · next ends =>
              have eof := beq_iff_eq.mp ends
              obtain rfl := settled.last List.suffix_rfl eof
              have other : isDeprecation first = false :=
                isDeprecation_eq_false (by rw [eof]; decide)
              rw [eof, other]
              constructor
              · intro absurd
                exact (List.not_mem_nil absurd).elim
              · rintro (⟨-, absurd | absurd⟩ | ⟨absurd, -⟩ | hidden)
                · cases absurd
                · cases absurd
                · cases absurd
                · exact (List.not_mem_nil hidden.mem).elim
          split
          · next layout =>
              have other := isDeprecation_of_isExtra layout
              have behind := ih later (by omega)
              simp only [extraTokens, tokensOfExtras, List.flatMap_cons, Extra.tokens,
                List.cons_append, List.nil_append, List.mem_cons] at behind ⊢
              rw [behind, layout, other]
              simp
          next solid =>
          split
          · next deprecation =>
              have behind := ih (later.of_suffix (List.drop_suffix (noticeLength rest) rest))
                (by rw [List.length_drop]; omega)
              have notice := hidden_behind_directive token settled deprecation
              simp only [deprecation, or_true, and_true, true_and]
              rw [notice, ← behind]
              simp only [extraTokens, tokensOfExtras, List.flatMap_cons, Extra.tokens,
                List.cons_append, List.mem_cons, List.mem_append, or_assoc]
          · next other =>
              have behind := ih later (by omega)
              simp only [extraTokens, tokensOfExtras, List.flatMap_nil, List.flatMap_cons,
                List.nil_append] at behind ⊢
              rw [behind]
              simp [solid, other]

/-! ### Sources -/

/-- A list that starts with a deprecation directive and ends a longer one lies behind every part of
that without such a directive. -/
theorem suffix_of_append {directive : Token} {rest : List Token} (front later : List Token)
    (deprecation : isDeprecation directive = true)
    (plain : ∀ token ∈ front, isDeprecation token = false)
    (within : directive :: rest <:+ front ++ later) : directive :: rest <:+ later := by
  induction front with
  | nil => exact within
  | cons first front ih =>
      obtain ⟨own, further⟩ := List.forall_mem_cons.mp plain
      rcases List.suffix_cons_iff.mp within with same | behind
      · rw [← (List.cons.inj same).1, deprecation] at own
        cases own
      · exact ih further behind

theorem OpensHeredoc.plain {delimiter : String} {front : List Token}
    (opens : OpensHeredoc delimiter front) :
    ∃ directive rest, front = directive :: rest ∧ directive.kind = .directive ∧
      ∀ token ∈ front, isDeprecation token = false := by
  have string {directive : Token} (spelled : directive.text = "#string") :
      isDeprecation directive = false := by
    rw [isDeprecation, Token.isDirective, spelled]
    exact Bool.and_false _
  have other {token : Token} {kind : TokenKind} (same : token.kind = kind)
      (differs : kind ≠ .directive) : isDeprecation token = false :=
    isDeprecation_eq_false (same ▸ differs)
  cases opens with
  | adjacent named spelled start same =>
      refine ⟨_, _, rfl, named, ?_⟩
      simp only [List.forall_mem_cons]
      exact ⟨string spelled, other start (by decide), List.forall_mem_nil _⟩
  | spaced named spelled layout start same =>
      refine ⟨_, _, rfl, named, ?_⟩
      simp only [List.forall_mem_cons]
      exact ⟨string spelled, other layout (by decide), other start (by decide),
        List.forall_mem_nil _⟩

namespace Grouped

/-- The first of some tokens in groups: the end of the file, a directive, a token on its own, or the
quote that opens a string. -/
theorem uncons {first : Token} {rest : List Token} (grouped : Grouped (first :: rest)) :
    first.kind = .eof ∨ first.kind = .directive ∨
      (first.kind.isGrouped = false ∧ Grouped rest) ∨
      ∃ pieces closing later, rest = pieces ++ closing :: later ∧ first.kind = .quote ∧
        (∀ piece ∈ pieces, isStringPart piece = true) ∧ closing.kind = .quote := by
  generalize same : first :: rest = tokens at grouped
  have directive {delimiter : String} {front behind : List Token}
      (opens : OpensHeredoc delimiter front) (whole : first :: rest = front ++ behind) :
      first.kind = .directive := by
    obtain ⟨directive, later, rfl, named, -⟩ := opens.plain
    rw [(List.cons.inj whole).1, named]
  cases grouped with
  | ended last => exact Or.inl ((List.cons.inj same).1 ▸ last)
  | single alone later =>
      obtain ⟨rfl, rfl⟩ := List.cons.inj same
      exact Or.inr (Or.inr (Or.inl ⟨alone, later⟩))
  | string quote body closes later =>
      obtain ⟨rfl, rfl⟩ := List.cons.inj same
      refine Or.inr (Or.inr (Or.inr ⟨_, _, _, rfl, quote, fun piece member => ?_, closes⟩))
      rcases body.kinds piece member with content | escape
      · rw [isStringPart, content]; rfl
      · rw [isStringPart, escape]; rfl
  | heredoc opens => exact Or.inr (Or.inl (directive opens same))
  | openHeredoc opens => exact Or.inr (Or.inl (directive opens same))
  | openHeredocBody opens => exact Or.inr (Or.inl (directive opens same))

/-- A quote with nothing but extras before it opens a string that closes. -/
theorem closes_string {opening : Token} {gap after : List Token}
    (grouped : Grouped (gap ++ opening :: after))
    (blank : ∀ extra ∈ gap, extra.kind.isExtra = true) (opens : opening.kind = .quote) :
    ∃ pieces closing rest, after = pieces ++ closing :: rest ∧
      (∀ piece ∈ pieces, isStringPart piece = true) ∧ closing.kind = .quote := by
  induction gap with
  | nil =>
      rcases uncons grouped with ends | directive | ⟨alone, -⟩ | ⟨_, _, _, same, -, inside, closes⟩
      · cases opens.symm.trans ends
      · cases opens.symm.trans directive
      · rw [opens] at alone
        cases alone
      · exact ⟨_, _, _, same, inside, closes⟩
  | cons extra gap ih =>
      obtain ⟨layout, further⟩ := List.forall_mem_cons.mp blank
      have other {kind : TokenKind} (same : extra.kind = kind) (solid : kind.isExtra = false) :
          False := by
        rw [same, solid] at layout
        cases layout
      rcases uncons grouped with ends | directive | ⟨-, later⟩ | ⟨_, _, _, -, quote, -⟩
      · exact (other ends rfl).elim
      · exact (other directive rfl).elim
      · exact ih later further
      · exact (other quote rfl).elim

/-- So does a quote behind a deprecation directive: such a directive stands in no string and opens no
heredoc. -/
theorem closes_message {tokens gap after : List Token} {directive opening : Token}
    (grouped : Grouped tokens) (within : directive :: (gap ++ opening :: after) <:+ tokens)
    (deprecation : isDeprecation directive = true)
    (blank : ∀ extra ∈ gap, extra.kind.isExtra = true) (opens : opening.kind = .quote) :
    ∃ pieces closing rest, after = pieces ++ closing :: rest ∧
      (∀ piece ∈ pieces, isStringPart piece = true) ∧ closing.kind = .quote := by
  have other {token : Token} {kind : TokenKind} (same : token.kind = kind)
      (differs : kind ≠ .directive) : isDeprecation token = false :=
    isDeprecation_eq_false (same ▸ differs)
  induction grouped with
  | ended last =>
      rcases List.suffix_cons_iff.mp within with same | behind
      · rw [(List.cons.inj same).1, other last (by decide)] at deprecation
        cases deprecation
      · cases List.suffix_nil.mp behind
  | single alone later ih =>
      rcases List.suffix_cons_iff.mp within with same | behind
      · rw [← (List.cons.inj same).2] at later
        exact closes_string later blank opens
      · exact ih behind
  | @string first closing pieces rest quote body closes later ih =>
      refine ih (suffix_of_append (first :: pieces ++ [closing]) rest deprecation ?_
        (by simpa using within))
      simp only [List.forall_mem_append, List.forall_mem_cons]
      refine ⟨⟨other quote (by decide), fun piece member => ?_⟩, other closes (by decide),
        List.forall_mem_nil _⟩
      rcases body.kinds piece member with content | escape
      · exact other content (by decide)
      · exact other escape (by decide)
  | @heredoc delimiter front rest body closing opening inside closes same later ih =>
      obtain ⟨-, -, -, -, plain⟩ := opening.plain
      refine ih (suffix_of_append (front ++ [body, closing]) rest deprecation ?_
        (by simpa using within))
      simp only [List.forall_mem_append, List.forall_mem_cons]
      exact ⟨plain, other inside (by decide), other closes (by decide), List.forall_mem_nil _⟩
  | @openHeredoc delimiter front last opening ends =>
      obtain ⟨-, -, -, -, plain⟩ := opening.plain
      have none := suffix_of_append (front ++ [last]) [] deprecation ?_
        (by simpa using within)
      · cases List.suffix_nil.mp none
      · simp only [List.forall_mem_append, List.forall_mem_cons]
        exact ⟨plain, other ends (by decide), List.forall_mem_nil _⟩
  | @openHeredocBody delimiter front invalid last opening body ends =>
      obtain ⟨-, -, -, -, plain⟩ := opening.plain
      have none := suffix_of_append (front ++ [invalid, last]) [] deprecation ?_
        (by simpa using within)
      · cases List.suffix_nil.mp none
      · simp only [List.forall_mem_append, List.forall_mem_cons]
        exact ⟨plain, other body (by decide), other ends (by decide), List.forall_mem_nil _⟩

end Grouped

theorem lex_settled (source : List Char) : Settled (lex source).tokens := by
  have grouped : Grouped (lex source).tokens := lexemesFrom_grouped source source 0 rfl
  refine ⟨fun {token rest} within ends => ?_, fun within => grouped.closes_message within⟩
  rw [lex_tokens] at within
  obtain ⟨before, whole⟩ := within
  rcases List.eq_nil_or_concat rest with none | ⟨rest', last, rfl⟩
  · exact none
  · -- The end of the file would be a token before the last one.
    rw [List.concat_eq_append, ← List.cons_append, ← List.append_assoc] at whole
    obtain ⟨same, -⟩ := List.append_inj' whole rfl
    refine (contentTokens_kinds source token ?_ ends).elim
    rw [← same]
    exact List.mem_append_right before List.mem_cons_self

theorem Tiles.pairwise {source : List Char} {start stop : Nat} {tokens : List Token}
    (tiles : Tiles source start tokens stop) :
    (∀ token ∈ tokens, start ≤ token.span.start) ∧
      tokens.Pairwise (fun earlier later => earlier.span.start < later.span.start) := by
  induction tiles with
  | none => exact ⟨List.forall_mem_nil _, .nil⟩
  | cons starts _ some later ih =>
      refine ⟨List.forall_mem_cons.mpr ⟨Nat.le_of_eq starts.symm, fun token member => ?_⟩,
        List.pairwise_cons.mpr ⟨fun token member => ?_, ih.2⟩⟩
      · have further := ih.1 token member
        omega
      · have further := ih.1 token member
        omega

/-- No token occurs twice in a source. -/
theorem contentTokens_nodup (source : List Char) : (contentTokens source).Nodup := by
  refine (contentTokens_tile source).pairwise.2.imp (fun earlier same => ?_)
  rw [same] at earlier
  exact Nat.lt_irrefl _ earlier

/-- Whether a token of a source, other than its end, is not among the significant tokens of the cursor
that the parser reads. -/
def IsUnseen (source : List Char) (token : Token) : Prop :=
  token ∈ (lex source).tokens ∧ token.kind ≠ .eof ∧
    token ∉ (TokenCursor.ofTokens (utf8Length source) (lex source).tokens).ahead.map Stop.token

/-- The tokens of a parted token list are those of its extras and the significant ones. -/
theorem parted_perm (parts : List Extra × List Stop) :
    (tokensOfExtras parts.1 ++ parts.2.flatMap Stop.tokens).Perm
      (extraTokens parts ++ parts.2.map Stop.token) := by
  obtain ⟨gap, stops⟩ := parts
  rw [extraTokens, List.append_assoc, List.perm_append_left_iff]
  induction stops with
  | nil => exact .refl _
  | cons stop rest ih =>
      simp only [List.flatMap_cons, List.map_cons, Stop.tokens, List.cons_append]
      refine ((ih.append_left (tokensOfExtras stop.gap)).cons stop.token).trans ?_
      rw [← List.append_assoc]
      exact List.perm_middle.symm

/-- What the grammar does not see is hidden, and what is hidden it does not see, whatever made the
token of a message invalid. -/
theorem isUnseen_iff (source : List Char) (token : Token) :
    IsUnseen source token ↔ IsHidden (fun _ => True) (lex source).tokens token := by
  let parts := partTokens (lex source).tokens (lex source).tokens
  have perm : (contentTokens source).Perm (extraTokens parts ++ parts.2.map Stop.token) := by
    rw [← initial_tokens source]
    exact parted_perm parts
  have distinct := List.nodup_append.mp (perm.nodup_iff.mp (contentTokens_nodup source))
  have content : token ∈ (lex source).tokens ∧ token.kind ≠ .eof ↔
      token ∈ contentTokens source := by
    rw [lex_tokens, List.mem_append, List.mem_singleton]
    constructor
    · rintro ⟨listed | rfl, more⟩
      · exact listed
      · exact (more rfl).elim
    · exact fun listed => ⟨Or.inl listed, contentTokens_kinds source token listed⟩
  rw [IsUnseen, ← and_assoc, content, perm.mem_iff, List.mem_append,
    ← mem_extraTokens_iff (lex_settled source) (Nat.le_refl _)]
  constructor
  · rintro ⟨extra | seen, unseen⟩
    · exact extra
    · exact (unseen seen).elim
  · exact fun extra => ⟨Or.inl extra, fun seen => distinct.2.2 token extra token seen rfl⟩

/-- Whether every invalid token that stands behind a deprecation directive of some tokens, with nothing
but extras between them, is invalid in a way that counts. -/
def OnlyAnnounces (counts : Token → Prop) (tokens : List Token) : Prop :=
  ∀ (directive invalid : Token) (gap after : List Token),
    directive :: (gap ++ invalid :: after) <:+ tokens → isDeprecation directive = true →
      (∀ extra ∈ gap, extra.kind.isExtra = true) → invalid.kind = .error → counts invalid

theorem IsHidden.imp {counts other : Token → Prop} {tokens : List Token} {token : Token}
    (hidden : IsHidden counts tokens token)
    (weaker : OnlyAnnounces (fun invalid => counts invalid → other invalid) tokens) :
    IsHidden other tokens token := by
  cases hidden with
  | extra listed layout => exact .extra listed layout
  | directive listed deprecation => exact .directive listed deprecation
  | message within deprecation announced listed =>
      obtain ⟨rfl, blank, spoken⟩ := announced
      refine .message within deprecation ⟨rfl, blank, ?_⟩ listed
      cases spoken with
      | literal opens inside closes => exact .literal opens inside closes
      | invalid error counted =>
          exact .invalid error (weaker _ _ _ _ within deprecation blank error counted)

/-- Which invalid tokens count makes no difference to what is hidden just if all those that stand where
a message could count. -/
theorem hidden_iff_onlyAnnounces {counts : Token → Prop} {tokens : List Token} :
    (∀ token, IsHidden (fun _ => True) tokens token ↔ IsHidden counts tokens token) ↔
      OnlyAnnounces counts tokens := by
  constructor
  · intro same directive invalid gap after within deprecation blank error
    have hidden : IsHidden (fun _ => True) tokens invalid :=
      .message within deprecation ⟨rfl, blank, .invalid error trivial⟩ List.mem_cons_self
    cases (same invalid).mp hidden with
    | extra _ layout =>
        rw [error] at layout
        cases layout
    | directive _ deprecation => cases error.symm.trans (isDeprecation_kind deprecation)
    | message _ _ announced listed =>
        cases announced.spoken with
        | literal opens inside closes =>
            rcases List.mem_cons.mp listed with rfl | later
            · cases error.symm.trans opens
            rcases List.mem_append.mp later with piece | last
            · have part := inside invalid piece
              rw [isStringPart, error] at part
              cases part
            · cases error.symm.trans (List.mem_singleton.mp last ▸ closes)
        | invalid _ counted => exact List.mem_singleton.mp listed ▸ counted
  · intro only token
    constructor
    · exact fun hidden => hidden.imp (fun _ _ _ _ within deprecation blank error _ =>
        only _ _ _ _ within deprecation blank error)
    · exact fun hidden => hidden.imp (fun _ _ _ _ _ _ _ _ _ => trivial)

/-- The grammar does not see the extras of a source, its deprecation directives and, behind such a
directive, a literal between quotes or any one invalid token, and it sees all the rest. An invalid token
is hidden as an unclosed string only, just if no other one stands behind a deprecation directive. -/
theorem cursor_hides_notices (source : List Char) :
    (∀ token, IsUnseen source token ↔ IsHidden (fun _ => True) (lex source).tokens token) ∧
      ((∀ token, IsUnseen source token ↔
          IsHidden (lex source).IsUnclosedString (lex source).tokens token) ↔
        OnlyAnnounces (lex source).IsUnclosedString (lex source).tokens) := by
  refine ⟨isUnseen_iff source, ?_⟩
  rw [← hidden_iff_onlyAnnounces]
  exact forall_congr' (fun token => by rw [isUnseen_iff])

/-- An invalid character behind a deprecation directive is hidden although it is no string. -/
theorem cursor_hides_character :
    ¬ ∀ token, IsUnseen "#deprecated `".toList token ↔
      IsHidden (lex "#deprecated `".toList).IsUnclosedString (lex "#deprecated `".toList).tokens
        token := by
  have tokens : ∃ directive blank invalid last,
      (lex "#deprecated `".toList).tokens = [directive, blank, invalid, last] ∧
      isDeprecation directive = true ∧ blank.kind.isExtra = true ∧ invalid.kind = .error ∧
      ¬ (lex "#deprecated `".toList).IsUnclosedString invalid := by
    refine ⟨_, _, _, _, rfl, ?_⟩
    unfold Lexed.IsUnclosedString
    decide +kernel
  obtain ⟨directive, blank, invalid, last, same, deprecation, layout, error, character⟩ := tokens
  intro claimed
  have only : OnlyAnnounces (lex "#deprecated `".toList).IsUnclosedString
      (lex "#deprecated `".toList).tokens :=
    hidden_iff_onlyAnnounces.mp (fun token => (isUnseen_iff _ token).symm.trans (claimed token))
  exact character (only directive invalid [blank] [last] (same ▸ List.suffix_rfl) deprecation
    (List.forall_mem_singleton.mpr layout) error)

end JaiSyntax
