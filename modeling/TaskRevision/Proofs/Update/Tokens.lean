import TaskRevision.Proofs.Update.Spelling
import TaskRevision.Update.Lexer
/-!
# The tokens of an update string

The lexer reads segments for as long as a comma and a segment follow.  A segment may be empty, so that one
follows every comma, and the lexer comes to the end of every string: it finds as many tokens as there are
segments, and it never fails.  What each token is can be said by its segment alone.

Tokens are tidy: trimmed, without commas, and cut at the first equals sign.  Tidy tokens can be written out
as segments again, and they are what is read from these.

* `Token.holds_iff` — the token of a segment, said without looking for it;
* `segments_eq`, `tokens_eq` — **the lexer comes to the end**, whatever toolkit it is given;
* `tidy_of_mem_tokenize`, `tokenize_spellTokens_iff` — **the tidy tokens are those that can be read back**;
* `tokens_lexed` — the whole statement.
-/

namespace TaskRevision.Update

open Text (Toolkit Further Trims trimL trims_iff)

/-! ## What a segment holds -/

/-- The segment holds the token. -/
inductive Token.Holds : List Char → Token → Prop
  /-- The trimmed texts before and after the first equals sign. -/
  | pair {before after key value : List Char} : '=' ∉ before → Trims before key → Trims after value →
      Token.Holds (before ++ '=' :: after) (.pair (String.ofList key) (String.ofList value))
  /-- Nothing but white space. -/
  | blank {segment : List Char} : IsGap segment → Token.Holds segment .blank
  /-- A trimmed text without equals sign. -/
  | bare {segment text : List Char} : '=' ∉ segment → ¬ IsGap segment → Trims segment text →
      Token.Holds segment (.bare (String.ofList text))

/-- Every segment holds its token, and no other. -/
theorem Token.holds_iff {segment : List Char} {token : Token} :
    Token.Holds segment token ↔ Token.ofSegment segment = token := by
  constructor
  · intro h
    cases h with
    | pair hbefore hkey hvalue => rw [ofSegment_pair hbefore, trims_iff.1 hkey, trims_iff.1 hvalue]
    | blank hgap => exact ofSegment_eq_blank_iff.2 hgap
    | bare hequals hgap htext => exact ofSegment_eq_bare_iff.2 ⟨hequals, hgap, by rw [trims_iff.1 htext]⟩
  · intro h
    cases token with
    | blank => exact .blank (ofSegment_eq_blank_iff.1 h)
    | pair key value =>
        obtain ⟨before, after, rfl, hbefore, hpair⟩ := ofSegment_eq_pair_iff.1 h
        cases hpair
        exact .pair hbefore (trims_iff.2 rfl) (trims_iff.2 rfl)
    | bare text =>
        obtain ⟨hequals, hgap, rfl⟩ := ofSegment_eq_bare_iff.1 h
        exact .bare hequals hgap (trims_iff.2 rfl)

theorem forall₂_holds_iff {segments : List (List Char)} {tokens : List Token} :
    List.Forall₂ Token.Holds segments tokens ↔ segments.map Token.ofSegment = tokens := by
  have hholds : Token.Holds = fun segment token => Token.ofSegment segment = token := by
    funext segment token
    exact propext Token.holds_iff
  rw [← List.forall₂_eq_eq_eq, List.forall₂_map_left_iff, hholds]

/-! ## The lexer -/

variable {ε : Type} {kit : Toolkit ε}

/-- Behind the first segment the parser of segments finds all others, and it comes to the end of the text. -/
theorem exists_further (h : kit.Lawful) (s : List Char) :
    ∃ others, Text.splitL ',' s = s.takeWhile (· != ',') :: others ∧
      Further (kit.char ',') (Lexer.segment kit) (s.dropWhile (· != ',')) others [] := by
  -- a comma at the start is a separator with a segment behind it, be it empty; any other character belongs
  -- to the first segment and leaves what is behind that alone
  induction s with
  | nil =>
      obtain ⟨fault, hnone⟩ := h.charMismatch ',' [] (by simp)
      exact ⟨[], rfl, .noSeparator hnone⟩
  | cons c s ih =>
      obtain ⟨others, hsplit, hfurther⟩ := ih
      by_cases hcomma : c = ','
      · subst hcomma
        have hleft : (s.dropWhile (· != ',')).length ≤ s.length := List.length_dropWhile_le _ _
        refine ⟨s.takeWhile (· != ',') :: others, by simp [Text.splitL, hsplit], ?_⟩
        exact .next (h.char ',' s) (by simp) (h.takeWhile _ s) hleft hfurther
      · refine ⟨others, by simp [Text.splitL, hsplit, hcomma], ?_⟩
        simpa [hcomma] using hfurther

/-- **The parser of segments comes to the end** of every text, with the pieces between the commas. -/
theorem segments_eq (h : kit.Lawful) (s : List Char) :
    Lexer.segments kit s = .ok (Text.splitL ',' s, []) := by
  obtain ⟨others, hsplit, hfurther⟩ := exists_further h s
  rw [hsplit]
  exact h.separatedList (h.takeWhile _ s) hfurther

theorem before_equals {s : List Char} (h : '=' ∉ s) : ∀ c ∈ s, (!(c == '=')) = true := by
  intro c hc
  simpa using ne_of_mem_of_not_mem hc h

theorem keyValue_append (h : kit.Lawful) {before : List Char} (hbefore : '=' ∉ before)
    (after : List Char) :
    Lexer.keyValue kit (before ++ '=' :: after) = .ok ((before, after), []) := by
  have hall := before_equals hbefore
  rw [Lexer.keyValue, h.separatedPair, h.takeTill, List.takeWhile_append_of_pos hall,
    List.dropWhile_append_of_pos hall]
  simp [bind, Except.bind, h.char, h.rest]

theorem keyValue_of_not_mem (h : kit.Lawful) {s : List Char} (hequals : '=' ∉ s) :
    ∃ stop, Lexer.keyValue kit s = .error stop := by
  obtain ⟨fault, hnone⟩ := h.charMismatch '=' [] (by simp)
  refine ⟨.mismatch fault, ?_⟩
  rw [Lexer.keyValue, h.separatedPair, h.takeTill, List.dropWhile_eq_nil_iff.2 (before_equals hequals)]
  simp [bind, Except.bind, hnone]

/-- **A segment is classified** as what it holds. -/
theorem classify_eq (h : kit.Lawful) (segment : List Char) :
    Lexer.classify kit segment = Token.ofSegment segment := by
  by_cases hequals : '=' ∈ segment
  · obtain ⟨before, after, rfl, hbefore⟩ := List.eq_append_cons_of_mem hequals
    rw [Lexer.classify, keyValue_append h hbefore, ofSegment_pair hbefore]
  · obtain ⟨stop, hstop⟩ := keyValue_of_not_mem h hequals
    have hblank : (trimL segment).isEmpty = segment.all Text.isBlank := by
      rw [Bool.eq_iff_iff, List.isEmpty_iff, List.all_eq_true, Text.trimL_eq_nil_iff]
    rw [Lexer.classify, hstop, ofSegment_of_not_mem hequals, hblank]

/-- **The lexer finds the tokens** of every string, and never fails. -/
theorem tokens_eq (h : kit.Lawful) (raw : String) : Lexer.tokens kit raw = .ok (tokenize raw) := by
  have hclassify : Lexer.classify kit = Token.ofSegment := funext (classify_eq h)
  rw [Lexer.tokens, segments_eq h, hclassify]
  rfl

/-! ## Tidy tokens -/

/-- The texts of the token are trimmed and hold no comma, and nothing in it could be taken for the equals
sign of a pair. -/
def Token.Tidy : Token → Prop
  | .blank => True
  | .pair key value => IsTidyPair (key, value)
  | .bare text => IsTidy text ∧ text ≠ "" ∧ '=' ∉ text.toList

/-- What a segment without comma holds is tidy. -/
theorem tidy_ofSegment {segment : List Char} (h : ',' ∉ segment) :
    (Token.ofSegment segment).Tidy := by
  cases htoken : Token.ofSegment segment with
  | blank => trivial
  | pair key value => exact (ofSegment_eq_pair_iff.1 htoken).isTidyPair h
  | bare text =>
      obtain ⟨hequals, hgap, rfl⟩ := ofSegment_eq_bare_iff.1 htoken
      refine ⟨isTidy_trimmed h, fun hempty => hgap ?_, fun hmem => hequals ?_⟩
      · exact Text.trimL_eq_nil_iff.1 (by simpa using hempty)
      · exact Text.mem_of_mem_trimL (by simpa using hmem)

/-- **Tokens are tidy.** -/
theorem tidy_of_mem_tokenize {raw : String} {token : Token} (h : token ∈ tokenize raw) :
    token.Tidy := by
  obtain ⟨segment, hsegment, rfl⟩ := List.mem_map.1 h
  exact tidy_ofSegment (Text.not_mem_of_mem_splitL hsegment)

/-! ## Writing tokens out -/

/-- The token as a segment. -/
def Token.spellL : Token → List Char
  | .blank => []
  | .pair key value => pairL (key, value)
  | .bare text => text.toList

/-- The tokens as segments, with commas between them. -/
def spellTokens (tokens : List Token) : String :=
  String.ofList ([','].intercalate (tokens.map Token.spellL))

namespace Token.Tidy

variable {token : Token}

theorem comma_not_mem (h : token.Tidy) : ',' ∉ token.spellL := by
  cases token with
  | blank => simp [spellL]
  | pair key value => exact IsTidyPair.comma_not_mem h
  | bare text => exact h.1.1

theorem ofSegment_spellL (h : token.Tidy) : Token.ofSegment token.spellL = token := by
  cases token with
  | blank => rfl
  | pair key value => exact ofSegment_eq_pair_iff.2 (IsTidyPair.readsAs h)
  | bare text =>
      obtain ⟨htidy, hempty, hequals⟩ := h
      have htrim : trimL text.toList = text.toList := (isTidy_iff.1 htidy).2
      refine ofSegment_eq_bare_iff.2 ⟨hequals, fun hgap => hempty ?_, ?_⟩
      · have hnil : trimL text.toList = [] := Text.trimL_eq_nil_iff.2 hgap
        simpa [htrim] using hnil
      · rw [spellL, htrim, String.ofList_toList]

end Token.Tidy

/-- **Rows of tidy tokens, of at least one, are read back** when they are written out, and no other rows
are. -/
theorem tokenize_spellTokens_iff {tokens : List Token} :
    tokenize (spellTokens tokens) = tokens ↔ tokens ≠ [] ∧ ∀ token ∈ tokens, token.Tidy := by
  constructor
  · intro h
    refine ⟨?_, fun token htoken => tidy_of_mem_tokenize (h ▸ htoken)⟩
    have hlength := length_tokenize (spellTokens tokens)
    rintro rfl
    rw [h] at hlength
    simp at hlength
  · rintro ⟨hne, htidy⟩
    have hpieces : Text.IsPieces ',' (spellTokens tokens).toList (tokens.map Token.spellL) := by
      refine ⟨by simpa using hne, ?_, by rw [spellTokens, String.toList_ofList]⟩
      intro segment hsegment
      obtain ⟨token, htoken, rfl⟩ := List.mem_map.1 hsegment
      exact (htidy token htoken).comma_not_mem
    have hback : ∀ token ∈ tokens, (Token.ofSegment ∘ Token.spellL) token = id token :=
      fun token htoken => (htidy token htoken).ofSegment_spellL
    rw [tokenize, ← Text.isPieces_iff.1 hpieces, List.map_map, List.map_congr_left hback, List.map_id]

/-! ## Update strings -/

/-- What the lexer finds in an update string. -/
structure Lexed (kit : Toolkit ε) (raw : String) : Prop where
  /-- It finds the tokens, and does not fail. -/
  found : Lexer.tokens kit raw = .ok (tokenize raw)
  /-- There is one token more than there are commas. -/
  length : (tokenize raw).length = raw.toList.count ',' + 1
  /-- The tokens are what the segments hold, one by one, and nothing else is found. -/
  segmentwise : ∃ segments, Text.IsPieces ',' raw.toList segments ∧ ∀ tokens : List Token,
    Lexer.tokens kit raw = .ok tokens ↔ List.Forall₂ Token.Holds segments tokens
  /-- They are tidy. -/
  tidy : ∀ token ∈ tokenize raw, token.Tidy
  /-- Written out and read again they are the same. -/
  again : Lexer.tokens kit (spellTokens (tokenize raw)) = .ok (tokenize raw)

/-- **The lexer finds one token a segment in every string**, and finds them again when they are written
out. -/
theorem tokens_lexed (h : kit.Lawful) (raw : String) : Lexed kit raw where
  found := tokens_eq h raw
  length := length_tokenize raw
  segmentwise := by
    refine ⟨_, Text.isPieces_splitL ',' raw.toList, fun tokens => ?_⟩
    rw [tokens_eq h, forall₂_holds_iff, tokenize, Except.ok.injEq]
  tidy _ htoken := tidy_of_mem_tokenize htoken
  again := by
    have hne : tokenize raw ≠ [] := by simp [tokenize, Text.splitL_ne_nil]
    have hspelled : tokenize (spellTokens (tokenize raw)) = tokenize raw :=
      tokenize_spellTokens_iff.2 ⟨hne, fun _ htoken => tidy_of_mem_tokenize htoken⟩
    rw [tokens_eq h, hspelled]

/-- A pair with blanks and a second equals sign, a bare text, and segments that are empty or blank. -/
theorem tokens_lexed_assorted :
    Toolkit.plain.Lawful ∧
      tokenize " a = b=c ,,\u2003x\t, " = [.pair "a" "b=c", .blank, .bare "x", .blank] ∧
      Lexed Toolkit.plain " a = b=c ,,\u2003x\t, " :=
  ⟨Text.lawful_plain, by decide, tokens_lexed Text.lawful_plain _⟩

end TaskRevision.Update
