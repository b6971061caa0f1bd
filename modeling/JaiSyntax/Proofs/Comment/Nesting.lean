import JaiSyntax.Proofs.Scanner.Buffer
/-!
The nesting of block comments. The text behind an opener is read from left to right as openers, closers and
single bytes. The comment ends at the first closer with which as many comments are closed as were opened;
where there is none it takes the rest of the source and tells how many comments are still open.
-/

set_option autoImplicit false

namespace JaiSyntax

open SourceUnit

/-! ### Pieces of comment text -/

def commentOpener : List UInt8 := [0x2F, 0x2A]

def commentCloser : List UInt8 := [0x2A, 0x2F]

/-- Comment text cut from left to right into openers, closers and single bytes. -/
def commentPieces : List UInt8 → List (List UInt8)
  | [] => []
  | [byte] => [[byte]]
  | first :: second :: rest =>
      if [first, second] = commentOpener ∨ [first, second] = commentCloser then
        [first, second] :: commentPieces rest
      else [first] :: commentPieces (second :: rest)

/-- A closer with which as many comments are closed as were opened: `outer` of them before the pieces, the
others among them. -/
structure ClosesAll (outer : Nat) (pieces : List (List UInt8)) (place : Nat) : Prop where
  closer : pieces[place]? = some commentCloser
  balanced : (pieces.take (place + 1)).count commentCloser =
    outer + (pieces.take (place + 1)).count commentOpener

structure ClosesFirst (outer : Nat) (pieces : List (List UInt8)) (place : Nat) : Prop extends
    ClosesAll outer pieces place where
  first : ∀ earlier, earlier < place → ¬ ClosesAll outer pieces earlier

instance (outer : Nat) (pieces : List (List UInt8)) (place : Nat) :
    Decidable (ClosesAll outer pieces place) :=
  decidable_of_iff
    (pieces[place]? = some commentCloser ∧ (pieces.take (place + 1)).count commentCloser =
      outer + (pieces.take (place + 1)).count commentOpener)
    ⟨fun both => ⟨both.1, both.2⟩, fun closes => ⟨closes.closer, closes.balanced⟩⟩

theorem commentOpener_ne_commentCloser : commentOpener ≠ commentCloser := by
  decide

theorem commentPieces_flatten (text : List UInt8) : (commentPieces text).flatten = text := by
  fun_induction commentPieces text with
  | case1 => rfl
  | case2 byte => rfl
  | case3 first second rest delimits ih =>
      rw [List.flatten_cons, ih]
      rfl
  | case4 first second rest plain ih =>
      rw [List.flatten_cons, ih]
      rfl

theorem commentPieces_ne_nil (byte : UInt8) (rest : List UInt8) :
    commentPieces (byte :: rest) ≠ [] := by
  intro none
  have joined := commentPieces_flatten (byte :: rest)
  rw [none] at joined
  cases joined

/-- What follows a closer is cut on its own. -/
theorem commentPieces_append (text suffix : List UInt8)
    (closes : (commentPieces text).getLast? = some commentCloser) :
    commentPieces (text ++ suffix) = commentPieces text ++ commentPieces suffix := by
  fun_induction commentPieces text with
  | case1 => cases closes
  | case2 byte =>
      have single : [byte] = commentCloser := Option.some.inj closes
      exact absurd (congrArg List.length single) (by simp [commentCloser])
  | case3 first second rest delimits ih =>
      rw [List.cons_append, List.cons_append, commentPieces, if_pos delimits]
      cases rest with
      | nil => rfl
      | cons third rest =>
          rw [List.getLast?_cons_of_ne_nil (commentPieces_ne_nil third rest)] at closes
          rw [ih closes]
          rfl
  | case4 first second rest plain ih =>
      rw [List.getLast?_cons_of_ne_nil (commentPieces_ne_nil second rest)] at closes
      rw [List.cons_append, List.cons_append, commentPieces, if_neg plain, ← List.cons_append,
        ih closes]
      rfl

/-! ### Where a comment ends -/

/-- An end of a comment, and how many bytes are covered there, where `covered` of them lie before the
pieces. -/
inductive Settles (outer : Nat) (pieces : List (List UInt8)) (covered : Nat) :
    CommentEnd × Nat → Prop where
  | closed {place : Nat} (closes : ClosesFirst outer pieces place) :
      Settles outer pieces covered
        (.terminated, covered + (pieces.take (place + 1)).flatten.length)
  | unclosed {depth : Nat} (never : ∀ place, ¬ ClosesAll outer pieces place) (positive : 1 ≤ depth)
      (balance : depth + pieces.count commentCloser = outer + pieces.count commentOpener) :
      Settles outer pieces covered (.unterminated depth, covered + pieces.flatten.length)

section Ends

variable {outer inner covered depth place : Nat} {piece : List UInt8} {pieces : List (List UInt8)}
  {scanned : CommentEnd × Nat}

theorem count_piece (counted piece : List UInt8) (pieces : List (List UInt8)) :
    (piece :: pieces).count counted = [piece].count counted + pieces.count counted := by
  rw [← List.count_append, List.singleton_append]

/-- A piece in front changes how many comments are open before the others. -/
theorem closesAll_succ_iff
    (balance : inner + [piece].count commentCloser = outer + [piece].count commentOpener) :
    ClosesAll outer (piece :: pieces) (place + 1) ↔ ClosesAll inner pieces place := by
  have closers := count_piece commentCloser piece (pieces.take (place + 1))
  have openers := count_piece commentOpener piece (pieces.take (place + 1))
  constructor
  · rintro ⟨closer, balanced⟩
    rw [List.take_succ_cons] at balanced
    constructor
    · exact closer
    · omega
  · rintro ⟨closer, balanced⟩
    constructor
    · exact closer
    · rw [List.take_succ_cons]
      omega

theorem not_closesAll_zero (other : piece ≠ commentCloser) : ¬ ClosesAll outer (piece :: pieces) 0 := by
  intro closes
  exact other (Option.some.inj closes.closer)

/-- A piece in front with which the comment does not end. -/
theorem Settles.cons
    (balance : inner + [piece].count commentCloser = outer + [piece].count commentOpener)
    (goesOn : ¬ ClosesAll outer (piece :: pieces) 0)
    (later : Settles inner pieces (covered + piece.length) scanned) :
    Settles outer (piece :: pieces) covered scanned := by
  cases later with
  | @closed place closes =>
      have length : covered + piece.length + (pieces.take (place + 1)).flatten.length =
          covered + ((piece :: pieces).take (place + 1 + 1)).flatten.length := by
        rw [List.take_succ_cons, List.flatten_cons, List.length_append]
        omega
      rw [length]
      apply Settles.closed
      constructor
      · exact (closesAll_succ_iff balance).mpr closes.toClosesAll
      · intro earlier before ends
        cases earlier with
        | zero => exact goesOn ends
        | succ earlier =>
            exact closes.first earlier (by omega) ((closesAll_succ_iff balance).mp ends)
  | @unclosed depth never positive left =>
      have length : covered + piece.length + pieces.flatten.length =
          covered + (piece :: pieces).flatten.length := by
        rw [List.flatten_cons, List.length_append]
        omega
      have closers := count_piece commentCloser piece pieces
      have openers := count_piece commentOpener piece pieces
      rw [length]
      apply Settles.unclosed
      · intro place ends
        cases place with
        | zero => exact goesOn ends
        | succ place => exact never place ((closesAll_succ_iff balance).mp ends)
      · exact positive
      · omega

theorem Settles.plain (later : Settles outer pieces (covered + piece.length) scanned)
    (notOpener : piece ≠ commentOpener) (notCloser : piece ≠ commentCloser) :
    Settles outer (piece :: pieces) covered scanned := by
  apply later.cons
  · rw [List.count_cons_of_ne notCloser, List.count_cons_of_ne notOpener]
    rfl
  · exact not_closesAll_zero notCloser

theorem Settles.nil (positive : 1 ≤ depth) :
    Settles depth [] covered (.unterminated depth, covered) := by
  apply Settles.unclosed
  · intro place closes
    cases closes.closer
  · exact positive
  · rfl

end Ends

theorem isOpener_iff (first second : UInt8) :
    (is '/' first && is '*' second) = true ↔ [first, second] = commentOpener := by
  simp [commentOpener, is, code, ← UInt8.toNat_inj]

theorem isCloser_iff (first second : UInt8) :
    (is '*' first && is '/' second) = true ↔ [first, second] = commentCloser := by
  simp [commentCloser, is, code, ← UInt8.toNat_inj]

/-- A scan with `depth` comments open ends where the pieces of the text say. -/
theorem blockCommentFrom_settles (depth covered : Nat) (text : List UInt8) (positive : 1 ≤ depth) :
    Settles depth (commentPieces text) covered (blockCommentFrom depth covered text) := by
  fun_induction blockCommentFrom depth covered text with
  | case1 depth covered => exact .nil positive
  | case2 depth covered byte =>
      have ended : Settles depth [] (covered + 1) (.unterminated depth, covered + 1) :=
        .nil positive
      exact Settles.plain ended (by simp [commentOpener]) (by simp [commentCloser])
  | case3 depth covered first second rest opens ih =>
      have opener := (isOpener_iff first second).mp opens
      rw [commentPieces, if_pos (Or.inl opener), opener]
      exact (ih (by omega)).cons rfl (not_closesAll_zero commentOpener_ne_commentCloser)
  | case4 depth covered first second rest inner closes last =>
      have closer := (isCloser_iff first second).mp closes
      have only : depth = 1 := by omega
      have ends : ClosesFirst depth (commentCloser :: commentPieces rest) 0 := by
        rw [only]
        constructor
        · exact ⟨rfl, rfl⟩
        · intro earlier before
          omega
      rw [commentPieces, if_pos (Or.inr closer), closer]
      exact .closed ends
  | case5 depth covered first second rest inner closes further ih =>
      have closer := (isCloser_iff first second).mp closes
      have goesOn : ¬ ClosesAll depth (commentCloser :: commentPieces rest) 0 := by
        intro ends
        have balanced : 1 = depth + 0 := ends.balanced
        omega
      have balance : depth - 1 + [commentCloser].count commentCloser =
          depth + [commentCloser].count commentOpener := by
        change depth - 1 + 1 = depth + 0
        omega
      rw [commentPieces, if_pos (Or.inr closer), closer]
      exact (ih (by omega)).cons balance goesOn
  | case6 depth covered first second rest opens closes ih =>
      rw [isOpener_iff] at opens
      rw [isCloser_iff] at closes
      rw [commentPieces, if_neg (not_or.mpr ⟨opens, closes⟩)]
      exact (ih positive).plain (by simp [commentOpener]) (by simp [commentCloser])

theorem blockCommentFrom_shift (start depth covered : Nat) (text : List UInt8) :
    blockCommentFrom depth (start + covered) text =
      ((blockCommentFrom depth covered text).1,
        start + (blockCommentFrom depth covered text).2) := by
  fun_induction blockCommentFrom depth covered text with
  | case1 depth covered => rfl
  | case2 depth covered byte => rfl
  | case3 depth covered first second rest opens ih =>
      rw [blockCommentFrom, if_pos opens]
      exact ih
  | case4 depth covered first second rest inner closes last =>
      rw [blockCommentFrom, if_neg inner, if_pos closes, if_pos last]
      rfl
  | case5 depth covered first second rest inner closes further ih =>
      rw [blockCommentFrom, if_neg inner, if_pos closes, if_neg further]
      exact ih
  | case6 depth covered first second rest opens closes ih =>
      rw [blockCommentFrom, if_neg opens, if_neg closes]
      exact ih

/-! ### The scanner of a buffer -/

namespace Buffer

structure Ahead (source : List UInt8) (position : Nat) (rest : List UInt8) : Prop where
  within : position ≤ source.length
  bytes : source.drop position = rest

section Bytes

variable {source rest : List UInt8} {position : Nat} {byte : UInt8} {test : UInt8 → Bool}

namespace Ahead

theorem length (ahead : Ahead source position rest) : position + rest.length = source.length := by
  have same := congrArg List.length ahead.bytes
  have within := ahead.within
  rw [List.length_drop] at same
  omega

theorem next (ahead : Ahead source position (byte :: rest)) : Ahead source (position + 1) rest := by
  have length := ahead.length
  rw [List.length_cons] at length
  constructor
  · omega
  · rw [← List.drop_drop, ahead.bytes, List.drop_succ_cons, List.drop_zero]

theorem byteAt (ahead : Ahead source position rest) :
    byteAt source position = some (rest.headD 0) := by
  have within := ahead.within
  rw [byteAt_eq (by omega), ahead.bytes]

theorem seek (ahead : Ahead source position (byte :: rest)) :
    seek source test position =
      if test byte then some (byte, position) else Buffer.seek source test (position + 1) := by
  rw [Buffer.seek, restAt_eq ahead.within, ahead.bytes]
  by_cases found : test byte = true
  · simp [found, List.findIdx?_cons, ahead.byteAt]
  · rw [if_neg found, Buffer.seek, restAt_eq ahead.next.within, ahead.next.bytes]
    simp only [Option.bind_eq_bind, Option.bind_some, List.findIdx?_cons, if_neg found]
    cases rest.findIdx? test with
    | none => rfl
    | some offset =>
        have same : position + (offset + 1) = position + 1 + offset := by omega
        simp only [Option.map_some, same]

end Ahead

theorem blockCommentFrom_nil (ahead : Ahead source position []) (depth : Nat) :
    blockCommentFrom source depth position = some (.unterminated depth, position) := by
  have whole := ahead.length
  rw [List.length_nil, Nat.add_zero] at whole
  rw [blockCommentFrom_eq, seek, restAt_eq ahead.within, ahead.bytes]
  simp [is, code, whole]

theorem blockCommentFrom_cons (ahead : Ahead source position (byte :: rest)) (depth : Nat) :
    blockCommentFrom source depth position =
      if is '/' byte && nextIs '*' rest then blockCommentFrom source (depth + 1) (position + 2)
      else if is '*' byte && nextIs '/' rest then
        if depth ≤ 1 then some (.terminated, position + 2)
        else blockCommentFrom source (depth - 1) (position + 2)
      else blockCommentFrom source depth (position + 1) := by
  -- The byte behind the last one is zero, and no delimiter.
  have peeked (character : Char) (some : 0 < character.toNat) :
      is character (rest.headD 0) = nextIs character rest := by
    cases rest with
    | nil =>
        change ((0 : Nat) == character.toNat) = false
        rw [beq_eq_false_iff_ne]
        omega
    | cons second rest => rfl
  rw [blockCommentFrom_eq, ahead.seek]
  by_cases found : (is '*' byte || is '/' byte) = true
  · have delimits : (is '/' byte || is '*' byte) = true := by
      rw [Bool.or_comm]
      exact found
    simp only [if_pos found, Option.bind_some, if_pos delimits, ahead.next.byteAt,
      peeked '*' (by decide), peeked '/' (by decide)]
  · have plain := Bool.eq_false_iff.mpr found
    obtain ⟨noStar, noSlash⟩ := Bool.or_eq_false_iff.mp plain
    rw [if_neg found, ← blockCommentFrom_eq]
    simp [noStar, noSlash]

/-- The jumps of the scanner from one delimiter to the next come to the same as reading byte by byte, whatever
the bytes are. -/
theorem blockCommentFrom_ahead (depth : Nat) (ahead : Ahead source position rest) :
    blockCommentFrom source depth position =
      some (JaiSyntax.blockCommentFrom depth position rest) := by
  fun_induction JaiSyntax.blockCommentFrom depth position rest with
  | case1 depth position => exact blockCommentFrom_nil ahead depth
  | case2 depth position byte =>
      have last := blockCommentFrom_cons ahead depth
      rw [nextIs, nextIs, Bool.and_false, Bool.and_false] at last
      exact last.trans (blockCommentFrom_nil ahead.next depth)
  | case3 depth position first second rest opens ih =>
      rw [blockCommentFrom_cons ahead, nextIs, if_pos opens]
      exact ih ahead.next.next
  | case4 depth position first second rest inner closes last =>
      rw [blockCommentFrom_cons ahead, nextIs, nextIs, if_neg inner, if_pos closes, if_pos last]
  | case5 depth position first second rest inner closes further ih =>
      rw [blockCommentFrom_cons ahead, nextIs, nextIs, if_neg inner, if_pos closes, if_neg further]
      exact ih ahead.next.next
  | case6 depth position first second rest opens closes ih =>
      rw [blockCommentFrom_cons ahead, nextIs, nextIs, if_neg opens, if_neg closes]
      exact ih ahead.next

end Bytes

end Buffer

/-! ### Nested comments -/

/-- Pieces in which whatever is opened is closed again. -/
inductive Nested : List (List UInt8) → Prop where
  | nil : Nested []
  | plain {piece : List UInt8} {rest : List (List UInt8)} (notOpener : piece ≠ commentOpener)
      (notCloser : piece ≠ commentCloser) (later : Nested rest) : Nested (piece :: rest)
  | comment {inside rest : List (List UInt8)} (inner : Nested inside) (later : Nested rest) :
      Nested (commentOpener :: inside ++ commentCloser :: rest)

def IsNestedComment (comment : List UInt8) : Prop :=
  ∃ inside, Nested inside ∧ commentPieces comment = commentOpener :: inside ++ [commentCloser]

/-- As much is closed as is opened, and no part at the front closes more than it opens. -/
theorem Nested.count_le {pieces : List (List UInt8)} (nested : Nested pieces) :
    pieces.count commentCloser = pieces.count commentOpener ∧
      ∀ length, (pieces.take length).count commentCloser ≤ (pieces.take length).count commentOpener := by
  have differ := commentOpener_ne_commentCloser
  induction nested with
  | nil =>
      constructor
      · rfl
      · intro length
        rw [List.take_nil]
        exact Nat.le_refl 0
  | plain notOpener notCloser later ih =>
      obtain ⟨equal, fewer⟩ := ih
      constructor
      · rw [List.count_cons_of_ne notCloser, List.count_cons_of_ne notOpener, equal]
      · intro length
        cases length with
        | zero => exact Nat.le_refl 0
        | succ length =>
            rw [List.take_succ_cons, List.count_cons_of_ne notCloser, List.count_cons_of_ne notOpener]
            exact fewer length
  | @comment inside rest inner later ihInner ihLater =>
      obtain ⟨innerEqual, innerFewer⟩ := ihInner
      obtain ⟨laterEqual, laterFewer⟩ := ihLater
      rw [List.cons_append]
      constructor
      · rw [List.count_cons_of_ne differ, List.count_cons_self, List.count_append, List.count_append,
          List.count_cons_self, List.count_cons_of_ne differ.symm]
        omega
      · intro length
        cases length with
        | zero => exact Nat.le_refl 0
        | succ length =>
            have front := innerFewer length
            rw [List.take_succ_cons, List.count_cons_of_ne differ, List.count_cons_self,
              List.take_append, List.count_append, List.count_append]
            -- The part ends inside the comment, or behind its closer.
            cases behind : length - inside.length with
            | zero =>
                rw [List.take_zero, List.count_nil, List.count_nil]
                omega
            | succ more =>
                have back := laterFewer more
                rw [List.take_of_length_le (by omega), List.take_succ_cons, List.count_cons_self,
                  List.count_cons_of_ne differ.symm]
                omega

/-- Behind nested pieces, the next closer is the first that closes all. -/
theorem Nested.closesFirst {inside : List (List UInt8)} (nested : Nested inside)
    (rest : List (List UInt8)) :
    ClosesFirst 1 (inside ++ commentCloser :: rest) inside.length := by
  obtain ⟨equal, fewer⟩ := nested.count_le
  constructor
  · constructor
    · rw [List.getElem?_append_right (Nat.le_refl _), Nat.sub_self]
      rfl
    · have taken : (inside ++ commentCloser :: rest).take (inside.length + 1) =
          inside ++ [commentCloser] := by
        rw [List.take_append, List.take_of_length_le (Nat.le_succ _), Nat.add_sub_cancel_left]
        rfl
      rw [taken, List.count_append, List.count_append, List.count_singleton_self,
        List.count_cons_of_ne commentOpener_ne_commentCloser.symm, List.count_nil]
      omega
  · intro earlier before closes
    have balanced := closes.balanced
    rw [List.take_append_of_le_length (by omega)] at balanced
    have front := fewer (earlier + 1)
    omega

/-! ### The extent of a comment -/

/-- The end of the comment at a position, and where the cursor stops: on the bytes of the source, and on the
buffer, where every read is in bounds. -/
structure ScansComment (source : List UInt8) (position : Nat) (ending : CommentEnd) (stop : Nat) :
    Prop where
  cursor : (Cursor.atPosition source position).blockComment = (ending, Cursor.atPosition source stop)
  buffer : Buffer.blockComment source position = some (ending, stop)

def piecesBehind (source : List UInt8) (position : Nat) : List (List UInt8) :=
  commentPieces (source.drop (position + 2))

section Extent

variable {source : List UInt8} {position : Nat}

theorem ahead_of_opener (opens : commentOpener <+: source.drop position) :
    Buffer.Ahead source (position + 2) (source.drop (position + 2)) ∧
      source.drop position = commentOpener ++ source.drop (position + 2) := by
  obtain ⟨rest, whole⟩ := opens
  have length := congrArg List.length whole
  have two : commentOpener.length = 2 := rfl
  rw [List.length_append, List.length_drop] at length
  have after : source.drop (position + 2) = rest := by
    rw [← List.drop_drop, ← whole]
    rfl
  constructor
  · constructor
    · omega
    · rfl
  · rw [after, whole]

theorem scansComment_settled (opens : commentOpener <+: source.drop position) :
    ∃ ending stop, ScansComment source position ending stop ∧
      Settles 1 (piecesBehind source position) (position + 2) (ending, stop) := by
  obtain ⟨ahead, whole⟩ := ahead_of_opener opens
  have settled := blockCommentFrom_settles 1 (position + 2) (source.drop (position + 2))
    (Nat.le_refl 1)
  have buffer := Buffer.blockCommentFrom_ahead 1 ahead
  rw [blockCommentFrom_shift] at settled buffer
  have scanned : blockComment (source.drop position) =
      blockCommentFrom 1 2 (source.drop (position + 2)) := by
    rw [whole]
    rfl
  have cursor : (Cursor.atPosition source position).blockComment =
      ((blockComment (source.drop position)).1,
        (Cursor.atPosition source position).advance (blockComment (source.drop position)).2) := rfl
  rw [scanned, Cursor.atPosition_advance] at cursor
  exact ⟨_, _, ⟨cursor, buffer⟩, settled⟩

theorem length_piecesBehind (opens : commentOpener <+: source.drop position) :
    position + 2 + (piecesBehind source position).flatten.length = source.length := by
  obtain ⟨ahead, -⟩ := ahead_of_opener opens
  rw [piecesBehind, commentPieces_flatten]
  exact ahead.length

theorem scansComment_closed {place : Nat} (opens : commentOpener <+: source.drop position)
    (closes : ClosesFirst 1 (piecesBehind source position) place) :
    ScansComment source position .terminated
      (position + 2 + ((piecesBehind source position).take (place + 1)).flatten.length) := by
  obtain ⟨ending, stop, scans, settled⟩ := scansComment_settled opens
  cases settled with
  | @closed other first =>
      have same : other = place := by
        rcases Nat.lt_trichotomy other place with before | equal | behind
        · exact absurd first.toClosesAll (closes.first other before)
        · exact equal
        · exact absurd closes.toClosesAll (first.first place behind)
      rw [← same]
      exact scans
  | unclosed never positive balance => exact absurd closes.toClosesAll (never place)

theorem scansComment_unclosed (opens : commentOpener <+: source.drop position)
    (never : ∀ place, ¬ ClosesAll 1 (piecesBehind source position) place) :
    ∃ depth, 1 ≤ depth ∧
      depth + (piecesBehind source position).count commentCloser =
        1 + (piecesBehind source position).count commentOpener ∧
      ScansComment source position (.unterminated depth) source.length := by
  obtain ⟨ending, stop, scans, settled⟩ := scansComment_settled opens
  cases settled with
  | @closed place closes => exact absurd closes.toClosesAll (never place)
  | @unclosed depth _ positive balance =>
      rw [length_piecesBehind opens] at scans
      exact ⟨depth, positive, balance, scans⟩

theorem piecesBehind_nested {comment suffix : List UInt8} {inside : List (List UInt8)}
    (pieces : commentPieces comment = commentOpener :: inside ++ [commentCloser])
    (whole : source.drop position = comment ++ suffix) :
    piecesBehind source position = inside ++ commentCloser :: commentPieces suffix ∧
      comment.length = 2 + (inside ++ [commentCloser]).flatten.length := by
  have joined := commentPieces_flatten comment
  rw [pieces, List.cons_append, List.flatten_cons] at joined
  have behind : commentPieces (inside ++ [commentCloser]).flatten = inside ++ [commentCloser] := by
    rw [← joined] at pieces
    exact (List.cons.inj pieces).2
  have dropped : source.drop (position + 2) = (inside ++ [commentCloser]).flatten ++ suffix := by
    rw [← List.drop_drop, whole, ← joined, List.append_assoc]
    rfl
  constructor
  · rw [piecesBehind, dropped, commentPieces_append, behind, List.append_assoc]
    · rfl
    · rw [behind, List.getLast?_concat]
  · rw [← joined, List.length_append]
    rfl

/-- A comment ends at the first closer with which as many comments are closed as were opened, the one at the
position included. Without such a closer it runs to the end of the source, and as many comments are open as
there are more openers than closers. So a nested comment is covered exactly, whatever follows it. -/
theorem blockComment_nests (opens : commentOpener <+: source.drop position) :
    (∀ place, ClosesFirst 1 (piecesBehind source position) place →
        ScansComment source position .terminated
          (position + 2 + ((piecesBehind source position).take (place + 1)).flatten.length)) ∧
      ((∀ place, ¬ ClosesAll 1 (piecesBehind source position) place) →
        ∃ depth, 1 ≤ depth ∧
          depth + (piecesBehind source position).count commentCloser =
            1 + (piecesBehind source position).count commentOpener ∧
          ScansComment source position (.unterminated depth) source.length) ∧
      ∀ comment suffix, IsNestedComment comment → source.drop position = comment ++ suffix →
        ScansComment source position .terminated (position + comment.length) := by
  refine ⟨fun place closes => scansComment_closed opens closes,
    fun never => scansComment_unclosed opens never, ?_⟩
  rintro comment suffix ⟨inside, nested, pieces⟩ whole
  obtain ⟨behind, length⟩ := piecesBehind_nested pieces whole
  have closes := nested.closesFirst (commentPieces suffix)
  rw [← behind] at closes
  have scans := scansComment_closed opens closes
  have taken : (inside ++ commentCloser :: commentPieces suffix).take (inside.length + 1) =
      inside ++ [commentCloser] := by
    rw [List.take_append, List.take_of_length_le (Nat.le_succ _), Nat.add_sub_cancel_left]
    rfl
  rw [behind, taken, Nat.add_assoc, ← length] at scans
  exact scans

end Extent

/-- In the text `/*/*/ **/*/z` the slash behind the second opener and the star before the first closer are
single bytes. -/
theorem blockComment_nests_overlapping :
    commentOpener <+: [0x2F, 0x2A, 0x2F, 0x2A, 0x2F, 0x20, 0x2A, 0x2A, 0x2F, 0x2A, 0x2F, 0x7A].drop 0 ∧
      ScansComment [0x2F, 0x2A, 0x2F, 0x2A, 0x2F, 0x20, 0x2A, 0x2A, 0x2F, 0x2A, 0x2F, 0x7A] 0
        .terminated 11 := by
  have opens : commentOpener <+:
      [0x2F, 0x2A, 0x2F, 0x2A, 0x2F, 0x20, 0x2A, 0x2A, 0x2F, 0x2A, 0x2F, 0x7A].drop 0 := by
    decide
  exact ⟨opens, (blockComment_nests opens).1 5 ⟨by decide, by decide⟩⟩

end JaiSyntax
