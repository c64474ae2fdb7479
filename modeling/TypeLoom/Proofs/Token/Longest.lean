/-
**Tokens are longest matches.**

Where some entry of the lexicon matches, the token is the longest such entry, of which there is one; a
comment or a string goes on to the first place where it ends. Elsewhere the token is a word, which goes
on to the first place where some entry matches.

* `longestMatch?_eq_some_iff`, `longestMatch?_eq_none_iff` — what the lookup finds, said of all entries:
  the lexicon lists them longest first, and no two of them are spelled alike.
* `reaches_length` — how far a comment or a string goes: the search for its end passes over what an
  escape hides, one character at a time.
* `foremost_firstToken` — so the first token is as described, and `foremost_tokensFrom` carries this
  along the walk through the text.
* **`tokenize_longest`** — the description of every token of a text, and no two words stand side by
  side.
-/

import Mathlib.Data.List.Nodup
import TypeLoom.Proofs.Token.Partition

namespace TypeLoom

/-! ### Entries that match -/

namespace LexEntry

/-- The entry stands at the front of `ahead`, and what stands before it is `behind`; a keyword stands
between characters that are no part of a word. -/
structure Matches (e : LexEntry) (behind ahead : List Char) : Prop where
  starts : e.value <+: ahead
  left : e.isKeyword = true → ∀ c ∈ behind.getLast?, Text.isWordChar c = false
  right : e.isKeyword = true → ∀ c ∈ (ahead.drop e.value.length).head?, Text.isWordChar c = false

/-- The entry matches, and every other entry that matches is shorter. -/
structure Longest (e : LexEntry) (behind ahead : List Char) : Prop where
  listed : e ∈ lexEntries
  fits : e.Matches behind ahead
  longer : ∀ other ∈ lexEntries, other.Matches behind ahead →
    other = e ∨ other.value.length < e.value.length

variable {e : LexEntry} {behind ahead : List Char}

theorem matchesAt_iff : e.matchesAt behind.getLast? ahead = true ↔ e.Matches behind ahead := by
  have free : ∀ side : Option Char, side.any Text.isWordChar = false ↔
      ∀ c ∈ side, Text.isWordChar c = false := by
    intro side
    cases side <;> simp
  unfold matchesAt
  rw [Bool.and_eq_true, Bool.or_eq_true, Bool.and_eq_true, Bool.not_eq_true', Bool.not_eq_true',
    Bool.not_eq_true', free, free, List.isPrefixOf_iff_prefix]
  constructor
  · rintro ⟨starts, plain | ⟨left, right⟩⟩
    · exact ⟨starts, fun keyword => absurd (keyword.symm.trans plain) (by simp),
        fun keyword => absurd (keyword.symm.trans plain) (by simp)⟩
    · exact ⟨starts, fun _ => left, fun _ => right⟩
  · intro fits
    refine ⟨fits.starts, ?_⟩
    cases keyword : e.isKeyword with
    | false => exact Or.inl rfl
    | true => exact Or.inr ⟨fits.left keyword, fits.right keyword⟩

end LexEntry

/-! ### The lexicon -/

theorem length_le_longestLength {e : LexEntry} (listed : e ∈ lexEntries) :
    e.value.length ≤ longestLength := by
  have bounded : ∀ e ∈ lexEntries, e.value.length ≤ longestLength := by decide +kernel
  exact bounded e listed

theorem mem_lexicon_iff {e : LexEntry} : e ∈ lexicon ↔ e ∈ lexEntries := by
  refine ⟨mem_lexEntries, fun listed => List.mem_flatMap.mpr ⟨e.value.length, ?_, ?_⟩⟩
  · rw [List.mem_reverse, List.mem_range]
    exact Nat.lt_add_one_of_le (length_le_longestLength listed)
  · rw [List.mem_filter]
    exact ⟨listed, beq_self_eq_true _⟩

/-- The entries are listed longest first. -/
theorem lexicon_pairwise : lexicon.Pairwise fun e later => later.value.length ≤ e.value.length := by
  have length_of_mem : ∀ {n : Nat} {e : LexEntry},
      e ∈ lexEntries.filter (fun e => e.value.length == n) → e.value.length = n :=
    fun member => eq_of_beq (List.mem_filter.mp member).2
  refine List.pairwise_flatMap.mpr ⟨fun n _ => ?_, ?_⟩
  · exact List.pairwise_of_forall_mem_list fun e member later member' => by
      exact Nat.le_of_eq ((length_of_mem member').trans (length_of_mem member).symm)
  · refine List.pairwise_reverse.mpr (List.pairwise_lt_range.imp fun less e member later member' => ?_)
    rw [length_of_mem member, length_of_mem member']
    exact Nat.le_of_lt less

/-- No two entries are spelled alike. -/
theorem eq_of_value_eq {e other : LexEntry} (listed : e ∈ lexEntries) (listed' : other ∈ lexEntries)
    (same : e.value = other.value) : e = other := by
  have nodup : (lexEntries.map LexEntry.value).Nodup := by decide +kernel
  exact List.inj_on_of_nodup_map nodup listed listed' same

section Lookup

variable {e : LexEntry} {behind ahead : List Char}

theorem longest_of_longestMatch? (found : longestMatch? behind.getLast? ahead = some e) :
    e.Longest behind ahead := by
  obtain ⟨fits, front, back, split, earlier⟩ := List.find?_eq_some_iff_append.mp found
  have fits := LexEntry.matchesAt_iff.mp fits
  have listed := mem_lexEntries (longestMatch?_mem found)
  refine ⟨listed, fits, fun other listed' fits' => ?_⟩
  have sorted := lexicon_pairwise
  rw [split, List.pairwise_append, List.pairwise_cons] at sorted
  have member := mem_lexicon_iff.mpr listed'
  rw [split, List.mem_append, List.mem_cons] at member
  rcases member with before | same | after
  · have missed := earlier other before
    rw [LexEntry.matchesAt_iff.mpr fits'] at missed
    cases missed
  · exact Or.inl same
  · refine (Nat.lt_or_eq_of_le (sorted.2.1.1 other after)).symm.imp (fun same => ?_) id
    -- Two entries of one length at the front of one text are spelled alike.
    have spelled := List.prefix_of_prefix_length_le fits'.starts fits.starts (Nat.le_of_eq same)
    exact eq_of_value_eq listed' listed (spelled.eq_of_length same)

theorem longestMatch?_eq_none_iff :
    longestMatch? behind.getLast? ahead = none ↔ ∀ e ∈ lexEntries, ¬e.Matches behind ahead := by
  rw [longestMatch?, List.find?_eq_none]
  refine forall_congr' fun e => ?_
  rw [mem_lexicon_iff, LexEntry.matchesAt_iff]

/-- **The lookup finds the longest entry that matches.** -/
theorem longestMatch?_eq_some_iff :
    longestMatch? behind.getLast? ahead = some e ↔ e.Longest behind ahead := by
  refine ⟨longest_of_longestMatch?, fun longest => ?_⟩
  cases found : longestMatch? behind.getLast? ahead with
  | none => exact absurd longest.fits (longestMatch?_eq_none_iff.mp found e longest.listed)
  | some other =>
    have longest' := longest_of_longestMatch? found
    rcases longest.longer other longest'.listed longest'.fits with same | shorter
    · rw [same]
    · rcases longest'.longer e longest.listed longest.fits with same | shorter'
      · rw [same]
      · exact absurd shorter (Nat.lt_asymm shorter')

end Lookup

/-! ### Ends of comments and strings -/

namespace BlockEnd

/-- The character at the place follows an escape that is itself not hidden in this way. -/
def isHidden (b : BlockEnd) (inside : List Char) : Nat → Bool
  | 0 => false
  | place + 1 => (inside[place]?.any fun c => b.escape == some c) && !b.isHidden inside place

/-- The terminator stands at the place, and no escape hides it. -/
structure EndsAt (b : BlockEnd) (inside : List Char) (place : Nat) : Prop where
  shown : b.isHidden inside place = false
  starts : b.terminator <+: inside.drop place

/-- The characters that a comment or a string takes of those after its opening ones: up to the first
place where it ends, with its terminator unless that is left for the next token, or all of them. -/
inductive Reaches (b : BlockEnd) (inside : List Char) : List Char → Prop
  | closed {place : Nat} : b.EndsAt inside place → (∀ earlier < place, ¬b.EndsAt inside earlier) →
      Reaches b inside (inside.take (if b.exclusive then place else place + b.terminator.length))
  | unclosed : (∀ place, ¬b.EndsAt inside place) → Reaches b inside inside

/-- The terminator has a character, and it does not begin with the escape. -/
structure Sound (b : BlockEnd) : Prop where
  nonempty : b.terminator ≠ []
  apart : ∀ c ∈ b.escape, b.terminator.head? ≠ some c

variable {b : BlockEnd} {c d : Char} {inside rest : List Char}

theorem isHidden_plain (plain : b.escape ≠ some c) (place : Nat) :
    b.isHidden (c :: rest) (place + 1) = b.isHidden rest place := by
  induction place with
  | zero => simp [isHidden, plain]
  | succ place ih => rw [isHidden, ih, isHidden, List.getElem?_cons_succ]

theorem isHidden_escape (escape : b.escape = some c) (place : Nat) :
    b.isHidden (c :: d :: rest) (place + 2) = b.isHidden rest place := by
  induction place with
  | zero => simp [isHidden, escape]
  | succ place ih =>
    rw [isHidden, ih, isHidden, List.getElem?_cons_succ, List.getElem?_cons_succ]

theorem not_endsAt_of_escape (sound : b.Sound) (escape : b.escape = some c) :
    ¬b.EndsAt (c :: rest) 0 := by
  rintro ⟨-, starts⟩
  obtain ⟨first, more, spelled⟩ := List.exists_cons_of_ne_nil sound.nonempty
  rw [spelled, List.drop_zero, List.cons_prefix_cons] at starts
  exact sound.apart c escape (by rw [spelled, starts.1]; rfl)

theorem not_endsAt_nil (sound : b.Sound) (place : Nat) : ¬b.EndsAt [] place := by
  rintro ⟨-, starts⟩
  rw [List.drop_nil, List.prefix_nil] at starts
  exact sound.nonempty starts

/-- Characters among which a comment or a string does not end are passed over. -/
theorem Reaches.pass {front body : List Char}
    (early : ∀ place < front.length, ¬b.EndsAt (front ++ rest) place)
    (later : ∀ place, b.EndsAt (front ++ rest) (front.length + place) ↔ b.EndsAt rest place)
    (reaches : b.Reaches rest body) : b.Reaches (front ++ rest) (front ++ body) := by
  have none : ∀ bound : Nat, (∀ place < bound, ¬b.EndsAt rest place) →
      ∀ place < front.length + bound, ¬b.EndsAt (front ++ rest) place := by
    intro bound clear place less
    by_cases inFront : place < front.length
    · exact early place inFront
    · obtain ⟨more, rfl⟩ := Nat.exists_eq_add_of_le (Nat.le_of_not_lt inFront)
      exact mt (later more).mp (clear more (Nat.lt_of_add_lt_add_left less))
  cases reaches with
  | @closed place ends first =>
    have taken := Reaches.closed ((later place).mpr ends) (none place first)
    have same : (if b.exclusive then front.length + place
        else front.length + place + b.terminator.length) =
        front.length + if b.exclusive then place else place + b.terminator.length := by
      split <;> omega
    rwa [same, List.take_length_add_append] at taken
  | unclosed clear =>
    refine .unclosed fun place => ?_
    exact none (place + 1) (fun earlier _ => clear earlier) place (by omega)

theorem Reaches.here (begins : b.terminator <+: inside) :
    b.Reaches inside (inside.take (if b.exclusive then 0 else b.terminator.length)) := by
  have ends : b.EndsAt inside 0 := ⟨rfl, begins⟩
  have taken := Reaches.closed ends fun earlier less => absurd less (Nat.not_lt_zero earlier)
  simpa only [Nat.zero_add] using taken

theorem Reaches.plain (plain : b.escape ≠ some c) (goes : ¬b.terminator <+: c :: rest)
    {body : List Char} (reaches : b.Reaches rest body) : b.Reaches (c :: rest) (c :: body) := by
  show b.Reaches ([c] ++ rest) ([c] ++ body)
  refine Reaches.pass (fun place less ends => ?_) (fun place => ?_) reaches
  · rw [Nat.lt_one_iff.mp less] at ends
    exact goes ends.starts
  · rw [List.length_singleton, Nat.add_comm]
    refine ⟨fun ends => ⟨?_, ends.starts⟩, fun ends => ⟨?_, ends.starts⟩⟩
    · exact (isHidden_plain plain place).symm.trans ends.shown
    · exact (isHidden_plain plain place).trans ends.shown

theorem Reaches.escaped (sound : b.Sound) (escape : b.escape = some c) {body : List Char}
    (reaches : b.Reaches rest body) : b.Reaches (c :: d :: rest) (c :: d :: body) := by
  show b.Reaches ([c, d] ++ rest) ([c, d] ++ body)
  refine Reaches.pass (fun place less ends => ?_) (fun place => ?_) reaches
  · rcases Nat.le_one_iff_eq_zero_or_eq_one.mp (Nat.le_of_lt_succ less) with rfl | rfl
    · exact not_endsAt_of_escape sound escape ends
    · have shown := ends.shown
      simp [isHidden, escape] at shown
  · rw [show [c, d].length + place = place + 2 from Nat.add_comm 2 place]
    refine ⟨fun ends => ⟨?_, ends.starts⟩, fun ends => ⟨?_, ends.starts⟩⟩
    · exact (isHidden_escape escape place).symm.trans ends.shown
    · exact (isHidden_escape escape place).trans ends.shown

/-- An escape at the end of the text hides nothing. -/
theorem Reaches.escape (sound : b.Sound) (escape : b.escape = some c) : b.Reaches [c] [c] := by
  refine .unclosed fun place ends => ?_
  cases place with
  | zero => exact not_endsAt_of_escape sound escape ends
  | succ place => exact sound.nonempty (List.prefix_nil.mp (by simpa using ends.starts))

/-- **How far a comment or a string goes.** -/
theorem reaches_length (sound : b.Sound) (inside : List Char) :
    b.Reaches inside (inside.take (b.length inside)) := by
  fun_induction length b inside with
  | case1 => exact .unclosed (not_endsAt_nil sound)
  | case2 c escape => exact .escape sound (eq_of_beq escape)
  | case5 c plain goes =>
    exact .plain (mt beq_iff_eq.mpr plain) (mt List.isPrefixOf_iff_prefix.mpr goes)
      (.unclosed (not_endsAt_nil sound))
  | case6 c d rest escape ih =>
    rw [Nat.add_comm]
    exact ih.escaped sound (eq_of_beq escape)
  | case9 c d rest plain goes ih =>
    rw [Nat.add_comm]
    exact ih.plain (mt beq_iff_eq.mpr plain) (mt List.isPrefixOf_iff_prefix.mpr goes)
  | case3 _ _ begins exclusive | case4 _ _ begins exclusive | case7 _ _ _ _ begins exclusive
  | case8 _ _ _ _ begins exclusive =>
    simpa [exclusive] using Reaches.here (List.isPrefixOf_iff_prefix.mp begins)

end BlockEnd

/-! ### The first token -/

/-- The characters that the token of an entry takes of those ahead: its own, and for a comment or a
string those up to its end. -/
def LexEntry.Takes (e : LexEntry) (ahead taken : List Char) : Prop :=
  match e.block with
  | none => taken = e.value
  | some b => ∃ body, b.Reaches (ahead.drop e.value.length) body ∧ taken = e.value ++ body

/-- No entry matches at a place inside of `taken`, which stands between `behind` and `rest`. -/
def Clear (behind taken rest : List Char) : Prop :=
  ∀ place < taken.length, ∀ e ∈ lexEntries,
    ¬e.Matches (behind ++ taken.take place) (taken.drop place ++ rest)

/-- What a token with the characters `taken` between `behind` and `rest` is: the longest entry that
matches there, or else a word up to the first place where some entry does. -/
structure Foremost (behind taken rest : List Char) (kind : TokenKind) : Prop where
  entry : (∃ e ∈ lexEntries, e.Matches behind (taken ++ rest)) →
    ∃ e : LexEntry, e.Longest behind (taken ++ rest) ∧ kind = e.kind ∧ e.Takes (taken ++ rest) taken
  word : (∀ e ∈ lexEntries, ¬e.Matches behind (taken ++ rest)) →
    kind = .word ∧ Clear behind taken rest ∧
      (rest = [] ∨ ∃ e ∈ lexEntries, e.Matches (behind ++ taken) rest)

theorem clear_cons {behind taken rest : List Char} {c : Char} :
    Clear behind (c :: taken) rest ↔
      (∀ e ∈ lexEntries, ¬e.Matches behind (c :: taken ++ rest)) ∧
        Clear (behind ++ [c]) taken rest := by
  constructor
  · intro clear
    refine ⟨by simpa using clear 0 (Nat.zero_lt_succ _), fun place less => ?_⟩
    simpa using clear (place + 1) (Nat.succ_lt_succ less)
  · rintro ⟨here, later⟩ place less
    cases place with
    | zero => simpa using here
    | succ place => simpa using later place (Nat.lt_of_succ_lt_succ less)

/-- Every block of the lexicon has a terminator, which does not begin with its escape. -/
theorem sound_of_block {e : LexEntry} (listed : e ∈ lexEntries) {b : BlockEnd}
    (block : e.block = some b) : b.Sound := by
  have sound : lexEntries.all (fun e => e.block.all fun b =>
      !b.terminator.isEmpty && b.escape.all fun c => b.terminator.head? != some c) = true := by
    decide +kernel
  have here := List.all_eq_true.mp sound e listed
  rw [block, Option.all_some, Bool.and_eq_true] at here
  obtain ⟨nonempty, apart⟩ := here
  refine ⟨by simpa using nonempty, fun c escape => ?_⟩
  rw [escape, Option.all_some] at apart
  simpa using apart

/-- **A word goes on to the first place where some entry matches.** -/
theorem wordTail_spec (behind : List Char) (c : Char) (rest : List Char) :
    Clear (behind ++ [c]) (rest.take (wordTail c rest)) (rest.drop (wordTail c rest)) ∧
      (rest.drop (wordTail c rest) = [] ∨ ∃ e ∈ lexEntries,
        e.Matches (behind ++ [c] ++ rest.take (wordTail c rest)) (rest.drop (wordTail c rest))) := by
  induction rest generalizing behind c with
  | nil => exact ⟨fun place less => (by cases less), Or.inl rfl⟩
  | cons d rest ih =>
    have last : (behind ++ [c]).getLast? = some c := List.getLast?_concat
    unfold wordTail
    rw [← last]
    cases found : longestMatch? (behind ++ [c]).getLast? (d :: rest) with
    | some e =>
      have longest := longest_of_longestMatch? found
      refine ⟨fun place less => (by cases less), Or.inr ⟨e, longest.listed, ?_⟩⟩
      simpa using longest.fits
    | none =>
      have none := longestMatch?_eq_none_iff.mp found
      obtain ⟨clear, after⟩ := ih (behind ++ [c]) d
      simp only [Option.isSome_none, Bool.false_eq_true, if_false, Nat.add_comm 1,
        List.take_succ_cons, List.drop_succ_cons]
      refine ⟨clear_cons.mpr ⟨?_, clear⟩, by simpa using after⟩
      rwa [List.cons_append, List.take_append_drop]

/-- **The first token is the longest entry that matches, or a word.** -/
theorem foremost_firstToken (behind : List Char) {ahead : List Char} (more : ahead ≠ []) :
    Foremost behind (ahead.take (firstToken behind.getLast? ahead).2)
      (ahead.drop (firstToken behind.getLast? ahead).2) (firstToken behind.getLast? ahead).1 := by
  refine ⟨fun matched => ?_, fun none => ?_⟩
  · rw [List.take_append_drop] at matched ⊢
    cases found : longestMatch? behind.getLast? ahead with
    | none =>
      obtain ⟨e, listed, fits⟩ := matched
      exact absurd fits (longestMatch?_eq_none_iff.mp found e listed)
    | some e =>
      have longest := longest_of_longestMatch? found
      refine ⟨e, longest, ?_⟩
      obtain ⟨rest, rfl⟩ := longest.fits.starts
      unfold firstToken LexEntry.Takes
      rw [found]
      cases block : e.block with
      | none => simp [block]
      | some b =>
        have reaches := BlockEnd.reaches_length (sound_of_block longest.listed block) rest
        simp only [block, List.drop_left, List.take_length_add_append, true_and]
        exact ⟨_, reaches, rfl⟩
  · rw [List.take_append_drop] at none
    obtain ⟨c, rest, rfl⟩ := List.exists_cons_of_ne_nil more
    have first : firstToken behind.getLast? (c :: rest) = (.word, wordTail c rest + 1) := by
      unfold firstToken
      rw [longestMatch?_eq_none_iff.mpr none, Nat.add_comm]
    obtain ⟨clear, after⟩ := wordTail_spec behind c rest
    simp only [first, List.take_succ_cons, List.drop_succ_cons]
    refine ⟨trivial, clear_cons.mpr ⟨?_, clear⟩, by simpa using after⟩
    rwa [List.cons_append, List.take_append_drop]

/-! ### All tokens -/

/-- **Every token of the walk is foremost where it stands.** The walk starts behind the characters
`past`, and `front` are the tokens it takes first. -/
theorem foremost_tokensFrom {fuel : Nat} (past : List Char) {position : Position} {offset : Nat}
    {rest : List Char} (enough : rest.length ≤ fuel) {front back : List Token} {token : Token}
    (cut : tokensFrom fuel past.getLast? position offset rest = front ++ token :: back) :
    Foremost (past ++ (String.join (front.map Token.value)).toList) token.value.toList
      (String.join (back.map Token.value)).toList token.kind := by
  induction fuel generalizing past position offset rest front with
  | zero => cases front <;> cases cut
  | succ fuel ih =>
    cases rest with
    | nil => cases front <;> cases cut
    | cons c tail =>
      have taken : 0 < (firstToken past.getLast? (c :: tail)).2 :=
        firstToken_pos (List.cons_ne_nil c tail)
      have shorter : ((c :: tail).drop (firstToken past.getLast? (c :: tail)).2).length ≤ fuel := by
        rw [List.length_drop]
        omega
      simp only [tokensFrom] at cut
      cases front with
      | nil =>
        simp only [List.nil_append, List.cons.injEq] at cut
        obtain ⟨rfl, rfl⟩ := cut
        have first := foremost_firstToken past (List.cons_ne_nil c tail)
        rw [join_tokensFrom shorter]
        simpa using first
      | cons first front =>
        simp only [List.cons_append, List.cons.injEq] at cut
        obtain ⟨rfl, cut⟩ := cut
        rw [← List.getLast?_append] at cut
        have later := ih _ shorter cut
        simpa using later

theorem foremost_tokenize {source : String} {front back : List Token} {token : Token}
    (cut : tokenize source = front ++ token :: back) :
    Foremost (String.join (front.map Token.value)).toList token.value.toList
      (String.join (back.map Token.value)).toList token.kind :=
  foremost_tokensFrom [] (Nat.le_refl _) cut

/-- No entry is that of a word. -/
theorem kind_ne_word {e : LexEntry} (listed : e ∈ lexEntries) : e.kind ≠ .word := by
  have named : ∀ e ∈ lexEntries, e.kind ≠ .word := by decide +kernel
  exact named e listed

/-- A token where some entry matches is no word. -/
theorem Foremost.ne_word {behind taken rest : List Char} {kind : TokenKind}
    (foremost : Foremost behind taken rest kind)
    (matched : ∃ e ∈ lexEntries, e.Matches behind (taken ++ rest)) : kind ≠ .word := by
  obtain ⟨e, longest, same, -⟩ := foremost.entry matched
  rw [same]
  exact kind_ne_word longest.listed

/-- Behind a word the text ends or some entry matches. -/
theorem Foremost.after_word {behind taken rest : List Char}
    (foremost : Foremost behind taken rest .word) :
    rest = [] ∨ ∃ e ∈ lexEntries, e.Matches (behind ++ taken) rest := by
  by_cases matched : ∃ e ∈ lexEntries, e.Matches behind (taken ++ rest)
  · exact absurd rfl (foremost.ne_word matched)
  · exact (foremost.word fun e listed fits => matched ⟨e, listed, fits⟩).2.2

/-- Comments and strings run on to an end, and a line comment alone leaves it for the next token. -/
theorem block_of_mem {e : LexEntry} (listed : e ∈ lexEntries) :
    (e.block.isSome ↔ e.kind = .lineComment ∨ e.kind = .blockComment ∨ e.kind = .text) ∧
      ∀ b ∈ e.block, b.exclusive = true ↔ e.kind = .lineComment := by
  have table : ∀ e ∈ lexEntries,
      (e.block.isSome ↔ e.kind = .lineComment ∨ e.kind = .blockComment ∨ e.kind = .text) ∧
        ∀ b ∈ e.block, b.exclusive = true ↔ e.kind = .lineComment := by
    decide +kernel
  exact table e listed

/-- Behind a word stands no other word. -/
theorem ne_word_of_follows {source : String} {front back : List Token} {token next : Token}
    (cut : tokenize source = front ++ token :: next :: back) (word : token.kind = .word) :
    next.kind ≠ .word := by
  have follows : tokenize source = (front ++ [token]) ++ next :: back := by simpa using cut
  obtain ⟨nonempty, -⟩ := tokensFrom_append_cons [] (show tokensFrom _ _ _ _ _ = _ from follows)
  have after := (word ▸ foremost_tokenize cut).after_word
  rw [List.map_cons, String.join_cons, String.toList_append] at after
  rcases after with ended | matched
  · rw [List.append_eq_nil_iff, String.toList_eq_nil_iff] at ended
    exact absurd ended.1 nonempty
  · refine (foremost_tokenize follows).ne_word ?_
    simpa using matched

/-- **Every token of a text is a longest match.** However the tokens are cut, the token at the cut
stands as many bytes into the text as the tokens before it take. If some entry matches there, the token
has the kind of the longest one, and its characters, on to the end of a comment or a string; only a
line comment leaves its end for the next token. If none matches, it is a word in which none does, up to
the end of the text or to a place where one does. So no two words stand side by side. -/
theorem tokenize_longest (source : String) (front back : List Token) (token : Token)
    (cut : tokenize source = front ++ token :: back) :
    source = String.join (front.map Token.value) ++ token.value ++
        String.join (back.map Token.value) ∧
      token.offset = (String.join (front.map Token.value)).utf8ByteSize ∧
      Foremost (String.join (front.map Token.value)).toList token.value.toList
        (String.join (back.map Token.value)).toList token.kind ∧
      (∀ e ∈ lexEntries,
        (e.block.isSome ↔ e.kind = .lineComment ∨ e.kind = .blockComment ∨ e.kind = .text) ∧
          ∀ b ∈ e.block, b.exclusive = true ↔ e.kind = .lineComment) ∧
      (token.kind = .word → ∀ next ∈ back.head?, next.kind ≠ .word) := by
  obtain ⟨-, offset, -⟩ := tokensFrom_append_cons [] (show tokensFrom _ _ _ _ _ = _ from cut)
  refine ⟨?_, by simpa using offset, foremost_tokenize cut, fun _ => block_of_mem,
    fun word next first => ?_⟩
  · rw [← join_tokenize source, cut, List.map_append, String.join_append, List.map_cons,
      String.join_cons, String.append_assoc]
  · obtain ⟨more, rfl⟩ := List.head?_eq_some_iff.mp first
    exact ne_word_of_follows cut word

/-- A word between a string with an escape and an operator of which another one is the front. -/
theorem tokenize_longest_escaped :
    tokenize "\"\\\"\"x&^=" =
        [⟨.text, "\"\\\"\"", ⟨1, 0⟩, 0⟩] ++ ⟨.word, "x", ⟨1, 4⟩, 4⟩ ::
          [⟨.andNotAssign, "&^=", ⟨1, 5⟩, 5⟩] ∧
      Foremost "\"\\\"\"".toList "x".toList "&^=".toList .word := by
  have cut : tokenize "\"\\\"\"x&^=" =
      [⟨.text, "\"\\\"\"", ⟨1, 0⟩, 0⟩] ++ ⟨.word, "x", ⟨1, 4⟩, 4⟩ ::
        [⟨.andNotAssign, "&^=", ⟨1, 5⟩, 5⟩] := by
    decide +kernel
  exact ⟨cut, by simpa using (tokenize_longest _ _ _ _ cut).2.2.1⟩

end TypeLoom
