import TaskRevision.Proofs.Json.Accepted
import TaskRevision.Proofs.Json.Integers
import TaskRevision.Proofs.Json.Strings
/-!
# Values that have been written

Writing loses nothing: a value is read back from its text, in either style and whatever stands behind
it.  The values for which this holds are the readable ones: their numbers are integers of 64 bits, no
object has a key twice, and they do not nest deeper than a reader admits.

* `Reads` — a reader takes a text for a thing, between any gaps before and anything that ends behind;
* `itemLoop_written`, `memberLoop_written` — **lists and objects**, for any reader of what they hold;
* `reads_value` — **every readable value is read back**.
-/

namespace TaskRevision.Json

/-! ## Readable values -/

/-- The value can be read back by a reader that admits so many levels of lists and objects. -/
inductive Value.Readable : Nat → Value → Prop
  /-- The absent value. -/
  | null {levels : Nat} : Readable levels .null
  /-- A truth value. -/
  | bool {levels : Nat} (b : Bool) : Readable levels (.bool b)
  /-- An integer of 64 bits. -/
  | integer {levels : Nat} {n : Int} : Fits64 n → Readable levels (.number (.integer n))
  /-- Any text. -/
  | string {levels : Nat} (s : String) : Readable levels (.string s)
  /-- A list of readable items. -/
  | array {levels : Nat} {items : List Value} : (∀ item ∈ items, Readable levels item) →
      Readable (levels + 1) (.array items)
  /-- An object of readable members, each under a key of its own. -/
  | object {levels : Nat} {members : Members} : (Keyed.keys members).Nodup →
      (∀ member ∈ members, Readable levels member.2) → Readable (levels + 1) (.object members)

namespace Value

theorem readable_array_iff {levels : Nat} {items : List Value} :
    (array items).Readable (levels + 1) ↔ ∀ item ∈ items, item.Readable levels :=
  ⟨fun | .array h => h, .array⟩

theorem readable_object_iff {levels : Nat} {members : Members} :
    (object members).Readable (levels + 1) ↔
      (Keyed.keys members).Nodup ∧ ∀ member ∈ members, member.2.Readable levels :=
  ⟨fun | .object hnodup h => ⟨hnodup, h⟩, fun ⟨hnodup, h⟩ => .object hnodup h⟩

end Value

/-! ## Texts that are read -/

/-- The reader takes the text for `x`, whatever gaps stand before it, if no numeral goes on behind. -/
def Reads {α : Type} (read : Reader α) (text : List Char) (x : α) : Prop :=
  ∀ before rest, IsSpace before → Ends rest → read (before ++ (text ++ rest)) = .ok (x, rest)

/-- The text starts with a token that does not close a list. -/
def Opens (text : List Char) : Prop := ∃ c s, text = c :: s ∧ isGap c = false ∧ c ≠ ']'

theorem Opens.cons {c : Char} (hgap : isGap c = false) (hclose : c ≠ ']') (s : List Char) :
    Opens (c :: s) := ⟨c, s, rfl, hgap, hclose⟩

theorem Opens.skipGaps {text before : List Char} (h : Opens text) (hbefore : IsSpace before)
    (rest : List Char) : skipGaps (before ++ (text ++ rest)) = text ++ rest := by
  obtain ⟨c, s, rfl, hgap, -⟩ := h
  rw [skipGaps_append hbefore, List.cons_append, skipGaps_cons hgap]

theorem Opens.append {text : List Char} (h : Opens text) (rest : List Char) :
    ∃ c s, text ++ rest = c :: s ∧ c ≠ ']' := by
  obtain ⟨c, s, rfl, -, hc⟩ := h
  exact ⟨c, s ++ rest, rfl, hc⟩

/-- No numeral goes on in a gap. -/
theorem Ends.of_space {before : List Char} (hbefore : IsSpace before) {s : List Char} (h : Ends s) :
    Ends (before ++ s) := by
  cases before with
  | nil => exact h
  | cons c before =>
      have hgap : isGap c = true := hbefore c (List.mem_cons_self ..)
      simp only [isGap, Bool.or_eq_true, decide_eq_true_eq] at hgap
      rw [List.cons_append, ends_cons]
      rcases hgap with ((h | h) | h) | h <;> subst h <;> decide

/-! ## Lists -/

section

variable {α : Type} {item : Reader α}

/-- **A written list is read back**, item by item. -/
theorem itemLoop_written {write : α → List Char} {gap last : List Char} (hgap : IsSpace gap)
    (hlast : IsSpace last) {x : α} {xs : List α} (hreads : ∀ y ∈ x :: xs, Reads item (write y) y)
    (hopens : ∀ y ∈ xs, Opens (write y)) {rounds : Nat} (hrounds : xs.length < rounds)
    (rest : List Char) :
    itemLoop item rounds
        (write x ++ ((xs.flatMap fun y => ',' :: (gap ++ write y)) ++ (last ++ ']' :: rest)))
      = .ok (x :: xs, rest) := by
  obtain ⟨rounds, rfl⟩ : ∃ n, rounds = n + 1 := ⟨rounds - 1, by omega⟩
  induction xs generalizing x rounds with
  | nil =>
      have hclose := skipGaps_append_cons hlast (show isGap ']' = false by decide) rest
      have hitem : item (write x ++ (last ++ ']' :: rest)) = .ok (x, last ++ ']' :: rest) :=
        hreads x (List.mem_cons_self ..) [] _ isSpace_nil
          (.of_space hlast (ends_cons.2 (by decide)))
      exact itemLoop_eq_ok_iff.2 ⟨x, _, hitem, .inl ⟨hclose, rfl⟩⟩
  | cons y ys ih =>
      rw [List.forall_mem_cons] at hreads hopens
      rw [List.length_cons] at hrounds
      obtain ⟨rounds, rfl⟩ : ∃ n, rounds = n + 1 := ⟨rounds - 1, by omega⟩
      have hloop := ih hreads.2 hopens.2 rounds (by omega)
      -- the text behind the comma, and the same text behind the gap
      let others := (ys.flatMap fun y => ',' :: (gap ++ write y)) ++ (last ++ ']' :: rest)
      have htext : ((y :: ys).flatMap fun y => ',' :: (gap ++ write y)) ++ (last ++ ']' :: rest)
          = ',' :: (gap ++ (write y ++ others)) := by simp [others]
      have hitem : item (write x ++ ',' :: (gap ++ (write y ++ others)))
          = .ok (x, ',' :: (gap ++ (write y ++ others))) :=
        hreads.1 [] _ isSpace_nil (ends_cons.2 (by decide))
      have hcomma : ∀ s, skipGaps (',' :: s) = ',' :: s := skipGaps_cons (by decide)
      have hnext := hopens.1.skipGaps hgap others
      obtain ⟨c, s, hcons, hc⟩ := hopens.1.append others
      rw [htext]
      exact itemLoop_eq_ok_iff.2
        ⟨x, _, hitem, .inr ⟨_, c, s, _, hcomma _, hnext.trans hcons, hc, hcons ▸ hloop, rfl⟩⟩

end

/-! ## Objects -/

section

variable {σ : Type} {member : σ → String → Reader σ} {state state' : σ}

/-- **A written object is read back**, member by member.  What stands behind the first key may be any
text that is read; the others are written alike. -/
theorem memberLoop_written (advance : σ → String × Value → σ) (write : Value → List Char)
    {gap first last : List Char} (hgap : IsSpace gap) (hlast : IsSpace last) {key : String}
    {members : Members} (hfirst : Reads (member state key) first state')
    (hreads : ∀ m ∈ members, ∀ state, Reads (member state m.1) (write m.2) (advance state m))
    {rounds : Nat} (hrounds : members.length < rounds) (rest : List Char) :
    memberLoop member rounds state (key.toList.flatMap escapedL ++ '"' :: (first
        ++ ((members.flatMap fun m => ',' :: (gap ++ (stringL m.1 ++ write m.2)))
          ++ (last ++ '\x7d' :: rest))))
      = .ok (members.foldl advance state', rest) := by
  obtain ⟨rounds, rfl⟩ : ∃ n, rounds = n + 1 := ⟨rounds - 1, by omega⟩
  -- the first member may be any text that is read; behind it the next one is the first
  induction members generalizing key first state state' rounds with
  | nil =>
      have hclose := skipGaps_append_cons hlast (show isGap '\x7d' = false by decide) rest
      have hmember : member state key (first ++ (last ++ '\x7d' :: rest))
          = .ok (state', last ++ '\x7d' :: rest) :=
        hfirst [] _ isSpace_nil (.of_space hlast (ends_cons.2 (by decide)))
      exact memberLoop_eq_ok_iff.2
        ⟨key, _, state', _, stringBody_stringL key _, hmember, .inl ⟨hclose, rfl⟩⟩
  | cons m members ih =>
      rw [List.forall_mem_cons] at hreads
      rw [List.length_cons] at hrounds
      obtain ⟨rounds, rfl⟩ : ∃ n, rounds = n + 1 := ⟨rounds - 1, by omega⟩
      have hloop := ih (hreads.1 state') hreads.2 rounds (by omega)
      -- the text behind the value of the next member
      let others := (members.flatMap fun m => ',' :: (gap ++ (stringL m.1 ++ write m.2)))
        ++ (last ++ '\x7d' :: rest)
      let text := m.1.toList.flatMap escapedL ++ '"' :: (write m.2 ++ others)
      have htext : ((m :: members).flatMap fun m => ',' :: (gap ++ (stringL m.1 ++ write m.2)))
          ++ (last ++ '\x7d' :: rest) = ',' :: (gap ++ '"' :: text) := by simp [text, others, stringL]
      have hmember : member state key (first ++ ',' :: (gap ++ '"' :: text))
          = .ok (state', ',' :: (gap ++ '"' :: text)) :=
        hfirst [] _ isSpace_nil (ends_cons.2 (by decide))
      have hcomma : ∀ s, skipGaps (',' :: s) = ',' :: s := skipGaps_cons (by decide)
      have hquote := skipGaps_append_cons hgap (show isGap '"' = false by decide) text
      rw [htext, List.foldl_cons]
      exact memberLoop_eq_ok_iff.2
        ⟨key, _, state', _, stringBody_stringL key _, hmember, .inr ⟨_, _, hcomma _, hquote, hloop⟩⟩

end

/-! ## Members of objects -/

/-- A style puts a colon and gaps between a key and its value. -/
theorem colonL_eq_cons (style : Style) : ∃ gap, style.colonL = ':' :: gap ∧ IsSpace gap := by
  cases style with
  | compact => exact ⟨[], rfl, isSpace_nil⟩
  | pretty => exact ⟨[' '], rfl, by simp [IsSpace, isGap]⟩

/-- Behind gaps the colon of a style comes next, and further gaps behind it. -/
theorem skipGaps_colonL (style : Style) {before : List Char} (hbefore : IsSpace before) (s : List Char) :
    ∃ gap, skipGaps (before ++ (style.colonL ++ s)) = ':' :: (gap ++ s) ∧ IsSpace gap := by
  obtain ⟨gap, hcolon, hgap⟩ := colonL_eq_cons style
  refine ⟨gap, ?_, hgap⟩
  rw [hcolon, List.cons_append]
  exact skipGaps_append_cons hbefore (by decide) (gap ++ s)

/-- A member whose value is read back is kept under its key. -/
theorem reads_keep {item : Reader Value} {text : List Char} {v : Value} (h : Reads item text v)
    (style : Style) (members : Members) (key : String) :
    Reads (keep item members key) (style.colonL ++ text) (Keyed.insert key v members) := by
  intro before rest hbefore hrest
  obtain ⟨gap, hcolon, hgap⟩ := skipGaps_colonL style hbefore (text ++ rest)
  rw [List.append_assoc]
  exact keep_eq_ok_iff.2 ⟨_, v, hcolon, h gap rest hgap hrest, rfl⟩

/-- Members under new keys, each different from the others, come behind those that are there. -/
theorem foldl_insert (start : Members) {members : Members} (hnodup : (Keyed.keys members).Nodup)
    (hnew : ∀ key ∈ Keyed.keys members, key ∉ Keyed.keys start) :
    members.foldl (fun state m => Keyed.insert m.1 m.2 state) start = start ++ members := by
  induction members generalizing start with
  | nil => simp
  | cons m members ih =>
      rw [Keyed.keys_cons, List.nodup_cons] at hnodup
      rw [Keyed.keys_cons, List.forall_mem_cons] at hnew
      have hinsert : Keyed.insert m.1 m.2 start = start ++ [m] :=
        Keyed.insert_of_not_mem m.2 hnew.1
      rw [List.foldl_cons, hinsert, ih (start ++ [m]) hnodup.2]
      · simp
      · intro key hkey hmem
        have hcases : key ∈ Keyed.keys start ∨ key = m.1 := by simpa [Keyed.keys] using hmem
        rcases hcases with h | rfl
        · exact hnew.2 key hkey h
        · exact hnodup.1 hkey

/-! ## Texts of lists and objects -/

theorem itemsL_eq_flatMap (style : Style) (level : Nat) (items : List Value) :
    itemsL style level items
      = items.flatMap fun item => ',' :: (style.breakL level ++ item.writeL style level) := by
  induction items with
  | nil => rw [itemsL, List.flatMap_nil]
  | cons item items ih => rw [itemsL, ih, List.flatMap_cons, List.cons_append]

theorem membersL_eq_flatMap (style : Style) (level : Nat) (members : Members) :
    membersL style level members = members.flatMap fun m =>
      ',' :: (style.breakL level ++ (stringL m.1 ++ (style.colonL ++ m.2.writeL style level))) := by
  induction members with
  | nil => rw [membersL, List.flatMap_nil]
  | cons m members ih =>
      obtain ⟨key, value⟩ := m
      rw [membersL, ih, List.flatMap_cons]
      simp

/-- The text of an object behind its brace; the value under the first key may be any text. -/
def objectL (style : Style) (level : Nat) (key : String) (first : List Char) (members : Members) :
    List Char :=
  style.breakL (level + 1) ++ stringL key ++ style.colonL ++ first
    ++ membersL style (level + 1) members ++ style.breakL level ++ ['\x7d']

theorem writeL_object_cons (style : Style) (level : Nat) (m : String × Value) (members : Members) :
    (Value.object (m :: members)).writeL style level
      = '\x7b' :: objectL style level m.1 (m.2.writeL style (level + 1)) members := by
  rw [Value.writeL, objectL]

/-- **The text of an object is read back**, whatever is done with its members. -/
theorem objectBody_objectL {σ : Type} {member : σ → String → Reader σ}
    {advance : σ → String × Value → σ} (style : Style) (level : Nat) {key : String}
    {first : List Char} {members : Members} {init state : σ}
    (hfirst : Reads (member init key) (style.colonL ++ first) state)
    (hreads : ∀ m ∈ members, ∀ state, Reads (member state m.1)
      (style.colonL ++ m.2.writeL style (level + 1)) (advance state m))
    {rounds : Nat} (hrounds : members.length < rounds) (rest : List Char) :
    objectBody rounds init member (objectL style level key first members ++ rest)
      = .ok (members.foldl advance state, rest) := by
  have hloop := memberLoop_written advance (fun v => style.colonL ++ v.writeL style (level + 1))
    (isSpace_breakL style (level + 1)) (isSpace_breakL style level) hfirst hreads hrounds rest
  rw [objectBody, objectL, membersL_eq_flatMap]
  simp only [stringL, List.append_assoc, List.cons_append, List.nil_append,
    skipGaps_append (isSpace_breakL style (level + 1)), skipGaps_cons (show isGap '"' = false by decide)]
  simpa [stringL] using hloop

/-! ### Lengths -/

theorem length_le_flatMap {α : Type} {f : α → List Char} {xs : List α} {x : α} (h : x ∈ xs) :
    (f x).length ≤ (xs.flatMap f).length := by
  obtain ⟨before, after, rfl⟩ := List.append_of_mem h
  simp only [List.flatMap_append, List.flatMap_cons, List.length_append]
  omega

/-- A row of things, each with a text that is not empty, is no longer than its text. -/
theorem length_le_length_flatMap {α : Type} {f : α → List Char} (hf : ∀ x, 0 < (f x).length)
    (xs : List α) : xs.length ≤ (xs.flatMap f).length := by
  induction xs with
  | nil => simp
  | cons x xs ih =>
      have hx := hf x
      rw [List.flatMap_cons, List.length_append, List.length_cons]
      omega

/-- A list is no longer than its text. -/
theorem length_items_le (items : List Value) (style : Style) (level : Nat) :
    items.length ≤ ((Value.array items).writeL style level).length := by
  cases items with
  | nil => simp
  | cons item items =>
      have hitems : items.length ≤ (itemsL style (level + 1) items).length := by
        rw [itemsL_eq_flatMap]
        exact length_le_length_flatMap (by simp) items
      simp only [Value.writeL, List.length_cons, List.length_append]
      omega

/-- The text of an item is no longer than that of the list. -/
theorem length_item_le {item : Value} {items : List Value} (h : item ∈ items) (style : Style)
    (level : Nat) :
    (item.writeL style (level + 1)).length ≤ ((Value.array items).writeL style level).length := by
  cases items with
  | nil => cases h
  | cons first items =>
      simp only [Value.writeL, List.length_cons, List.length_append, itemsL_eq_flatMap]
      rcases List.mem_cons.1 h with rfl | hrest
      · omega
      · have hitem := length_le_flatMap
          (f := fun item : Value => ',' :: (style.breakL (level + 1) ++ item.writeL style (level + 1)))
          hrest
        simp only [List.length_cons, List.length_append] at hitem
        omega

section

variable (style : Style) (level : Nat) (key : String) (first : List Char) (members : Members)

/-- An object has fewer further members than its text has characters. -/
theorem length_lt_objectL : members.length < (objectL style level key first members).length := by
  have hmembers : members.length ≤ (membersL style (level + 1) members).length := by
    rw [membersL_eq_flatMap]
    exact length_le_length_flatMap (by simp) members
  simp only [objectL, List.length_append, List.length_cons]
  omega

/-- The text of the first value is no longer than that of the object. -/
theorem length_first_le_objectL : first.length ≤ (objectL style level key first members).length := by
  simp only [objectL, List.length_append]
  omega

variable {members}

/-- The text of a further member is no longer than that of the object. -/
theorem length_member_le_objectL {m : String × Value} (h : m ∈ members) :
    (m.2.writeL style (level + 1)).length ≤ (objectL style level key first members).length := by
  have hmember := length_le_flatMap (f := fun m : String × Value =>
    ',' :: (style.breakL (level + 1) ++ (stringL m.1 ++ (style.colonL ++ m.2.writeL style (level + 1)))))
    h
  rw [← membersL_eq_flatMap] at hmember
  simp only [List.length_cons, List.length_append] at hmember
  simp only [objectL, List.length_append]
  omega

end

/-- An object has no more members than its text has characters. -/
theorem length_members_le (members : Members) (style : Style) (level : Nat) :
    members.length ≤ ((Value.object members).writeL style level).length := by
  cases members with
  | nil => simp
  | cons m members =>
      have hlt := length_lt_objectL style level m.1 (m.2.writeL style (level + 1)) members
      rw [writeL_object_cons, List.length_cons, List.length_cons]
      omega

/-- The text of a member is no longer than that of the object. -/
theorem length_member_le {m : String × Value} {members : Members} (h : m ∈ members) (style : Style)
    (level : Nat) :
    (m.2.writeL style (level + 1)).length ≤ ((Value.object members).writeL style level).length := by
  cases members with
  | nil => cases h
  | cons other members =>
      rw [writeL_object_cons, List.length_cons]
      refine Nat.le_succ_of_le ?_
      rcases List.mem_cons.1 h with rfl | hrest
      · exact length_first_le_objectL style level m.1 _ members
      · exact length_member_le_objectL style level other.1 _ hrest

/-! ## Values -/

section

variable {array object : Reader Value}

/-- A text that starts with a token is read as what the token says. -/
theorem reads_of_lexed {text : List Char} {v : Value} (hopens : Opens text)
    (h : ∀ rest, Ends rest → Lexed array object (text ++ rest) v rest) :
    Reads (valueWith array object) text v := by
  intro before rest hbefore hrest
  rw [valueWith_eq_ok_iff, hopens.skipGaps hbefore]
  exact h rest hrest

theorem reads_null : Reads (valueWith array object) ['n', 'u', 'l', 'l'] .null :=
  reads_of_lexed (.cons (by decide) (by decide) _) fun rest _ => .null rest

theorem reads_bool (b : Bool) (style : Style) (level : Nat) :
    Reads (valueWith array object) ((Value.bool b).writeL style level) (.bool b) := by
  cases b with
  | true =>
      rw [Value.writeL]
      exact reads_of_lexed (.cons (by decide) (by decide) _) fun rest _ => .yes rest
  | false =>
      rw [Value.writeL]
      exact reads_of_lexed (.cons (by decide) (by decide) _) fun rest _ => .no rest

theorem reads_string (s : String) : Reads (valueWith array object) (stringL s) (.string s) := by
  refine reads_of_lexed (.cons (by decide) (by decide) _) fun rest _ => ?_
  rw [stringL, List.cons_append, List.append_assoc, List.singleton_append]
  exact .string (stringBody_stringL s rest)

/-- An integer starts as a numeral. -/
theorem integerL_eq_cons (n : Int) : ∃ c s, integerL n = c :: s ∧ StartsNumeral c := by
  by_cases hneg : n < 0
  · exact ⟨'-', _, by rw [integerL, if_pos hneg], .inl rfl⟩
  · cases hdigits : naturalL n.natAbs with
    | nil => exact absurd hdigits Nat.toDigits_ne_nil
    | cons c s =>
        have hmem : c ∈ naturalL n.natAbs := by rw [hdigits]; exact List.mem_cons_self ..
        have hdigit := isDigit_of_isDigit (isDigit_of_mem_naturalL hmem)
        exact ⟨c, s, by rw [integerL, if_neg hneg, hdigits], .inr hdigit⟩

theorem opens_integerL (n : Int) : Opens (integerL n) := by
  obtain ⟨c, s, hcons, hc⟩ := integerL_eq_cons n
  rw [hcons]
  exact .cons hc.isGap_eq_false (hc.ne (by decide)) s

theorem reads_integer {n : Int} (hn : Fits64 n) :
    Reads (valueWith array object) (integerL n) (.number (.integer n)) := by
  refine reads_of_lexed (opens_integerL n) fun rest hrest => ?_
  have hnumeral := numeral_integerL hn hrest
  obtain ⟨c, s, hcons, hc⟩ := integerL_eq_cons n
  rw [hcons, List.cons_append] at hnumeral ⊢
  exact .number hc hnumeral

end

/-- The text of a readable value starts with a token that does not close a list. -/
theorem opens_writeL {levels : Nat} {v : Value} (h : v.Readable levels) (style : Style) (level : Nat) :
    Opens (v.writeL style level) := by
  cases h with
  | null => exact .cons (by decide) (by decide) _
  | bool b => cases b <;> exact .cons (by decide) (by decide) _
  | @integer _ n _ =>
      rw [Value.writeL, Number.textL]
      exact opens_integerL n
  | string s => exact .cons (by decide) (by decide) _
  | @array _ items _ => cases items <;> exact .cons (by decide) (by decide) _
  | @object _ members _ _ => cases members <;> exact .cons (by decide) (by decide) _

/-! ### Lists and objects -/

section

variable {rounds level : Nat} {style : Style}

/-- **The text of a list is read back**, whatever its items are taken for. -/
theorem arrayBody_writeL {α : Type} {item : Reader α} (toValue : α → Value) {xs : List α}
    (hreads : ∀ x ∈ xs, Reads item ((toValue x).writeL style (level + 1)) x)
    (hopens : ∀ x ∈ xs, Opens ((toValue x).writeL style (level + 1))) (hrounds : xs.length ≤ rounds) :
    ∃ body, (Value.array (xs.map toValue)).writeL style level = '[' :: body ∧
      ∀ rest, arrayBody rounds item (body ++ rest) = .ok (xs, rest) := by
  cases xs with
  | nil => exact ⟨[']'], by rw [List.map_nil, Value.writeL], fun _ => rfl⟩
  | cons x xs =>
      refine ⟨_, by rw [List.map_cons, Value.writeL], fun rest => ?_⟩
      have hloop := itemLoop_written (isSpace_breakL style (level + 1)) (isSpace_breakL style level)
        hreads (fun y hy => hopens y (List.mem_cons_of_mem _ hy)) hrounds rest
      have htext : (style.breakL (level + 1) ++ (toValue x).writeL style (level + 1)
            ++ itemsL style (level + 1) (xs.map toValue) ++ style.breakL level ++ [']']) ++ rest
          = style.breakL (level + 1) ++ ((toValue x).writeL style (level + 1)
            ++ ((xs.flatMap fun y => ',' :: (style.breakL (level + 1) ++ (toValue y).writeL style
              (level + 1))) ++ (style.breakL level ++ ']' :: rest))) := by
        simp [itemsL_eq_flatMap, List.flatMap_map]
      have hfirst : Opens ((toValue x).writeL style (level + 1)) := hopens x (List.mem_cons_self ..)
      have hskip := hfirst.skipGaps (isSpace_breakL style (level + 1))
      obtain ⟨c, s, hcons, hc⟩ := hfirst.append _
      rw [htext]
      exact arrayBody_eq_ok_iff.2 (.inr ⟨c, s, (hskip _).trans hcons, hc, hcons ▸ hloop⟩)

/-- The text of an object is read back member by member, if no key stands twice. -/
theorem objectBody_writeL {item : Reader Value} {members : Members}
    (hnodup : (Keyed.keys members).Nodup)
    (hreads : ∀ m ∈ members, Reads item (m.2.writeL style (level + 1)) m.2)
    (hrounds : members.length ≤ rounds) :
    ∃ body, (Value.object members).writeL style level = '\x7b' :: body ∧
      ∀ rest, objectBody rounds [] (keep item) (body ++ rest) = .ok (members, rest) := by
  cases members with
  | nil => exact ⟨['\x7d'], by rw [Value.writeL], fun _ => rfl⟩
  | cons m members =>
      rw [List.forall_mem_cons] at hreads
      refine ⟨_, writeL_object_cons style level m members, fun rest => ?_⟩
      have hmembers : ∀ other ∈ members, ∀ state, Reads (keep item state other.1)
          (style.colonL ++ other.2.writeL style (level + 1))
          (Keyed.insert other.1 other.2 state) :=
        fun other hother state => reads_keep (hreads.2 other hother) style state other.1
      rw [objectBody_objectL style level (reads_keep hreads.1 style [] m.1) hmembers hrounds rest]
      have hall := foldl_insert [] hnodup (by simp)
      rw [List.nil_append, List.foldl_cons] at hall
      rw [hall]

end

/-! ### Any readable value -/

/-- **Every readable value is read back** from its text. -/
theorem reads_value {levels : Nat} {v : Value} (h : v.Readable levels) (style : Style) (level : Nat)
    {rounds : Nat} (hrounds : (v.writeL style level).length ≤ rounds) :
    Reads (value rounds levels) (v.writeL style level) v := by
  have hleaf : ∀ levels, ∃ array object, value rounds levels = valueWith array object := by
    intro levels
    cases levels <;> exact ⟨_, _, by rw [value]⟩
  induction h generalizing level with
  | @null levels =>
      obtain ⟨array, object, hvalue⟩ := hleaf levels
      rw [hvalue, Value.writeL]
      exact reads_null
  | @bool levels b =>
      obtain ⟨array, object, hvalue⟩ := hleaf levels
      rw [hvalue]
      exact reads_bool b style level
  | @integer levels n hn =>
      obtain ⟨array, object, hvalue⟩ := hleaf levels
      rw [hvalue, Value.writeL]
      exact reads_integer hn
  | @string levels s =>
      obtain ⟨array, object, hvalue⟩ := hleaf levels
      rw [hvalue, Value.writeL]
      exact reads_string s
  | @array levels items hitems ih =>
      have hreads : ∀ item ∈ items, Reads (value rounds levels) (item.writeL style (level + 1)) item :=
        fun item hitem => ih item hitem (level + 1)
          (Nat.le_trans (length_item_le hitem style level) hrounds)
      have hopens : ∀ item ∈ items, Opens (item.writeL style (level + 1)) :=
        fun item hitem => opens_writeL (hitems item hitem) style (level + 1)
      obtain ⟨body, htext, hbody⟩ := arrayBody_writeL id hreads hopens
        (Nat.le_trans (length_items_le items style level) hrounds)
      rw [List.map_id] at htext
      rw [value, htext]
      refine reads_of_lexed (.cons (by decide) (by decide) _) fun rest _ => ?_
      rw [List.cons_append]
      exact .array (by simp only [hbody, bind, Except.bind])
  | @object levels members hnodup hmembers ih =>
      have hreads : ∀ m ∈ members, Reads (value rounds levels) (m.2.writeL style (level + 1)) m.2 :=
        fun m hm => ih m hm (level + 1) (Nat.le_trans (length_member_le hm style level) hrounds)
      obtain ⟨body, htext, hbody⟩ := objectBody_writeL hnodup hreads
        (Nat.le_trans (length_members_le members style level) hrounds)
      rw [value, htext]
      refine reads_of_lexed (.cons (by decide) (by decide) _) fun rest _ => ?_
      rw [List.cons_append]
      exact .object (by simp only [hbody, bind, Except.bind])

end TaskRevision.Json
