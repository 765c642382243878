import DbPager.Plain

/-!
# Placeholders of SQL statements

`tag_query::parse` of `dbp_pgsql` replaces the placeholders of a statement.
It keeps one flag for each of the two quote characters; a reader of SQL has
one of three states.  The statements say at which places the flags are wrong,
and what becomes of the cast operator.
-/

namespace DbPager

namespace Pgsql

namespace TagQuery

/-- What `parse` makes of a character of the statement: it is copied, starts a
placeholder, or belongs to the name of one. -/
inductive Role where
  | copied
  | mark
  | name
  deriving DecidableEq, Repr

/-- The flags of `parse` between two characters, and whether a name is being
read. -/
structure Reading where
  ssq : Bool
  dsq : Bool
  naming : Bool
  deriving DecidableEq, Repr

namespace Reading

def start : Reading := ⟨false, false, false⟩

def role (reading : Reading) (c : Char) : Role :=
  if reading.naming && isParamChar c then .name
  else if (c == '?' || c == ':') && !reading.ssq && !reading.dsq then .mark
  else .copied

def next (reading : Reading) (c : Char) : Reading where
  ssq := if c == '\'' then !reading.ssq else reading.ssq
  dsq := if c == '"' then !reading.dsq else reading.dsq
  naming :=
    match reading.role c with
    | .copied => false
    | .mark => c == ':'
    | .name => true

/-- The characters of a statement with their roles. -/
def roles (reading : Reading) : Str → List (Char × Role)
  | [] => []
  | c :: rest => (c, reading.role c) :: roles (reading.next c) rest

def after (reading : Reading) (text : Str) : Reading :=
  text.foldl next reading

end Reading

/-- The query and the names of its parameters, from the roles; `n` parameters
come before. -/
def render (dcl : Dcl) : Nat → List (Char × Role) → Str × List Str
  | _, [] => ([], [])
  | n, (c, .copied) :: rest =>
      (c :: (render dcl n rest).1, (render dcl n rest).2)
  | n, (_, .mark) :: rest =>
      ('$' :: dcl.toStringInt (n + 1) ++ (render dcl (n + 1) rest).1,
        (rest.takeWhile fun entry => entry.2 == .name).map Prod.fst ::
          (render dcl (n + 1) rest).2)
  | n, (_, .name) :: rest => render dcl n rest

section Roles

/-- A character of a name is none of the characters `parse` looks for. -/
theorem ne_of_isParamChar {c d : Char} (named : isParamChar c = true)
    (other : isParamChar d = false) : c ≠ d := by
  intro same
  rw [same, other] at named
  cases named

theorem next_named {reading : Reading} {c : Char}
    (naming : reading.naming = true) (named : isParamChar c = true) :
    reading.role c = .name ∧ reading.next c = reading := by
  have role : reading.role c = .name := by
    simp [Reading.role, naming, named]
  have single := ne_of_isParamChar (d := '\'') named rfl
  have double := ne_of_isParamChar (d := '"') named rfl
  constructor
  · exact role
  · cases reading
    simp only [Reading.next, role, single, double, beq_iff_eq, ↓reduceIte]
    simpa using naming.symm

/-- Outside a name it does not matter whether a name came before. -/
theorem roles_unnamed (ssq dsq : Bool) {text : Str}
    (unnamed : ∀ c ∈ text.head?, isParamChar c = false) :
    Reading.roles ⟨ssq, dsq, true⟩ text =
      Reading.roles ⟨ssq, dsq, false⟩ text := by
  cases text with
  | nil => rfl
  | cons c rest =>
      have other := unnamed c rfl
      have role : Reading.role ⟨ssq, dsq, true⟩ c =
          Reading.role ⟨ssq, dsq, false⟩ c := by
        simp [Reading.role, other]
      simp only [Reading.roles, Reading.next, role]

/-- The name of a placeholder and what comes after it. -/
theorem roles_naming (ssq dsq : Bool) (text : Str) :
    Reading.roles ⟨ssq, dsq, true⟩ text =
      (text.takeWhile isParamChar).map (fun c => (c, .name)) ++
        Reading.roles ⟨ssq, dsq, false⟩ (text.dropWhile isParamChar) := by
  induction text with
  | nil => rfl
  | cons c rest induction =>
      by_cases named : isParamChar c = true
      · obtain ⟨role, same⟩ := @next_named ⟨ssq, dsq, true⟩ c rfl named
        rw [List.takeWhile_cons_of_pos named, List.dropWhile_cons_of_pos named,
          List.map_cons, List.cons_append, ← induction]
        simp only [Reading.roles, role, same]
      · rw [List.takeWhile_cons_of_neg named, List.dropWhile_cons_of_neg named]
        apply roles_unnamed
        intro first found
        cases found
        exact Bool.eq_false_iff.mpr named

theorem render_names (dcl : Dcl) (n : Nat) (name : Str)
    (rest : List (Char × Role)) :
    render dcl n (name.map (fun c => (c, .name)) ++ rest) =
      render dcl n rest := by
  induction name with
  | nil => rfl
  | cons c name induction => exact induction

/-- The first character outside a name does not belong to one. -/
theorem takeWhile_roles (ssq dsq : Bool) (text : Str) :
    ((Reading.roles ⟨ssq, dsq, false⟩ text).takeWhile
      fun entry => entry.2 == .name) = [] := by
  cases text with
  | nil => rfl
  | cons c rest =>
      have role : Reading.role ⟨ssq, dsq, false⟩ c ≠ .name := by
        unfold Reading.role
        rw [if_neg (by simp)]
        split <;> simp
      rw [Reading.roles, List.takeWhile_cons_of_neg]
      simpa using role

/-- What a colon outside the quotes does to the query and its parameters. -/
theorem render_colon (dcl : Dcl) (n : Nat) (ssq dsq : Bool) (rest : Str) :
    render dcl n ((':', .mark) :: Reading.roles ⟨ssq, dsq, true⟩ rest) =
      ('$' :: dcl.toStringInt (n + 1) ++ (render dcl (n + 1)
          (Reading.roles ⟨ssq, dsq, false⟩ (rest.dropWhile isParamChar))).1,
        rest.takeWhile isParamChar :: (render dcl (n + 1)
          (Reading.roles ⟨ssq, dsq, false⟩
            (rest.dropWhile isParamChar))).2) := by
  have names : ∀ entry ∈ (rest.takeWhile isParamChar).map
      (fun c => (c, Role.name)), (entry.2 == .name) = true := by
    intro entry member
    obtain ⟨c, _, rfl⟩ := List.mem_map.mp member
    rfl
  have first : ((Reading.roles ⟨ssq, dsq, true⟩ rest).takeWhile
      fun entry => entry.2 == .name).map Prod.fst =
        rest.takeWhile isParamChar := by
    rw [roles_naming, List.takeWhile_append_of_pos names, takeWhile_roles,
      List.append_nil, List.map_map]
    exact List.map_id' _
  rw [render, first, roles_naming, render_names]

end Roles

section Parsing

variable (dcl : Dcl)

/-- The loop produces what the roles of the characters say. -/
theorem parseLoop_eq (budget : Nat) {text : Str} (ssq dsq : Bool) (n : Nat)
    (q : Str) (parameters : List Str) (enough : text.length < budget) :
    parseLoop dcl budget text ssq dsq n q parameters =
      some (q ++ (render dcl n (Reading.roles ⟨ssq, dsq, false⟩ text)).1,
        parameters ++
          (render dcl n (Reading.roles ⟨ssq, dsq, false⟩ text)).2) := by
  induction budget generalizing text ssq dsq n q parameters with
  | zero => exact absurd enough (Nat.not_lt_zero _)
  | succ budget induction =>
      cases text with
      | nil => simp [parseLoop, Reading.roles, render]
      | cons c rest =>
          have shorter : rest.length < budget := by
            simpa using enough
          have dropped : (rest.dropWhile isParamChar).length < budget :=
            Nat.lt_of_le_of_lt (List.dropWhile_suffix _).length_le shorter
          rw [parseLoop]
          by_cases single : c = '\''
          · subst single
            simp [induction _ _ _ _ _ shorter, Reading.roles, Reading.role,
              Reading.next, render]
          by_cases double : c = '"'
          · subst double
            simp [induction _ _ _ _ _ shorter, Reading.roles, Reading.role,
              Reading.next, render]
          by_cases question : c = '?' ∧ ssq = false ∧ dsq = false
          · obtain ⟨rfl, rfl, rfl⟩ := question
            simp [induction _ _ _ _ _ shorter, Reading.roles, Reading.role,
              Reading.next, render, takeWhile_roles]
          by_cases colon : c = ':' ∧ ssq = false ∧ dsq = false
          · obtain ⟨rfl, rfl, rfl⟩ := colon
            have roles : Reading.roles ⟨false, false, false⟩ (':' :: rest) =
                (':', .mark) :: Reading.roles ⟨false, false, true⟩ rest := rfl
            rw [roles, render_colon]
            simp [induction _ _ _ _ _ dropped]
          have unmarked : (c == '?' && !ssq && !dsq) = false := by
            simpa [and_assoc] using question
          have unnamed : (c == ':' && !ssq && !dsq) = false := by
            simpa [and_assoc] using colon
          have role : Reading.role ⟨ssq, dsq, false⟩ c = .copied := by
            simp only [Reading.role, Bool.and_assoc, Bool.and_or_distrib_right]
              at unmarked unnamed ⊢
            simp [unmarked, unnamed]
          simp [single, double, unmarked, unnamed, induction _ _ _ _ _ shorter,
            Reading.roles, role, Reading.next, render]

/-- `parse` ends, and its result is the statement with the roles of its
characters. -/
theorem parse_eq (statement : Str) :
    parse dcl statement =
      some (render dcl 0 (Reading.start.roles statement)) := by
  have ran := parseLoop_eq dcl (statement.length + 1) false false 0 [] []
    (Nat.lt_succ_self statement.length)
  exact ran

end Parsing

/-- The state of a reader of SQL: outside the quotes, in a single-quoted
literal, or in a double-quoted identifier. -/
inductive Quote where
  | outside
  | literal
  | identifier
  deriving DecidableEq, Repr

namespace Quote

def next : Quote → Char → Quote
  | outside, c =>
      if c = '\'' then literal else if c = '"' then identifier else outside
  | literal, c => if c = '\'' then outside else literal
  | identifier, c => if c = '"' then outside else identifier

def after (quote : Quote) (text : Str) : Quote :=
  text.foldl next quote

/-- The number of double quotes that are ordinary characters of a literal. -/
def doubleInLiterals (quote : Quote) : Str → Nat
  | [] => 0
  | c :: rest =>
      (if quote = literal ∧ c = '"' then 1 else 0) +
        doubleInLiterals (quote.next c) rest

/-- The number of single quotes that are ordinary characters of an
identifier. -/
def singleInIdentifiers (quote : Quote) : Str → Nat
  | [] => 0
  | c :: rest =>
      (if quote = identifier ∧ c = '\'' then 1 else 0) +
        singleInIdentifiers (quote.next c) rest

/-- All other single quotes open or close a literal. -/
theorem count_single (quote : Quote) (text : Str) :
    (text.count '\'' + if quote = literal then 1 else 0) % 2 =
      (quote.singleInIdentifiers text +
        if quote.after text = literal then 1 else 0) % 2 := by
  induction text generalizing quote with
  | nil => cases quote <;> rfl
  | cons c rest induction =>
      have later := induction (quote.next c)
      have folded : quote.after (c :: rest) = (quote.next c).after rest := rfl
      rw [folded, singleInIdentifiers, List.count_cons]
      by_cases single : c = '\''
      · subst single
        cases quote <;> simp [next] at later ⊢ <;> omega
      · by_cases double : c = '"'
        · subst double
          cases quote <;> simp [next] at later ⊢ <;> omega
        · cases quote <;> simp [next, single, double] at later ⊢ <;> omega

/-- All other double quotes open or close an identifier. -/
theorem count_double (quote : Quote) (text : Str) :
    (text.count '"' + if quote = identifier then 1 else 0) % 2 =
      (quote.doubleInLiterals text +
        if quote.after text = identifier then 1 else 0) % 2 := by
  induction text generalizing quote with
  | nil => cases quote <;> rfl
  | cons c rest induction =>
      have later := induction (quote.next c)
      have folded : quote.after (c :: rest) = (quote.next c).after rest := rfl
      rw [folded, doubleInLiterals, List.count_cons]
      by_cases double : c = '"'
      · subst double
        cases quote <;> simp [next] at later ⊢ <;> omega
      · by_cases single : c = '\''
        · subst single
          cases quote <;> simp [next] at later ⊢ <;> omega
        · cases quote <;> simp [next, single, double] at later ⊢ <;> omega

end Quote

namespace Reading

theorem length_roles (reading : Reading) (text : Str) :
    (reading.roles text).length = text.length := by
  induction text generalizing reading with
  | nil => rfl
  | cons c rest induction =>
      rw [roles, List.length_cons, induction, List.length_cons]

theorem roles_at (reading : Reading) (before : Str) (c : Char) (rest : Str) :
    (reading.roles (before ++ c :: rest))[before.length]? =
      some (c, (reading.after before).role c) := by
  induction before generalizing reading with
  | nil => rfl
  | cons first before induction =>
      simpa [roles, after] using induction (reading.next first)

/-- A flag that a quote character toggles holds the parity of their number. -/
theorem flag_after {flag : Reading → Bool} {quote : Char}
    (toggles : ∀ reading c, flag (next reading c) =
      if c == quote then !flag reading else flag reading)
    (reading : Reading) (text : Str) :
    flag (reading.after text) =
      (flag reading ^^ decide (text.count quote % 2 = 1)) := by
  induction text generalizing reading with
  | nil => simp [after]
  | cons c rest induction =>
      have later := induction (reading.next c)
      have folded : reading.after (c :: rest) = (reading.next c).after rest :=
        rfl
      rw [folded, later, toggles, List.count_cons]
      by_cases same : c = quote
      · rcases Nat.mod_two_eq_zero_or_one (rest.count quote) with even | odd
        · simp [same, Nat.add_mod, even]
        · simp [same, Nat.add_mod, odd]
      · simp [same]

/-- Whether `parse` takes itself to be outside the quotes. -/
def unquoted (reading : Reading) : Bool :=
  !reading.ssq && !reading.dsq

theorem role_mark_iff (reading : Reading) {c : Char}
    (sign : c = '?' ∨ c = ':') :
    reading.role c = .mark ↔ reading.unquoted = true := by
  have other : isParamChar c = false := by
    rcases sign with rfl | rfl <;> rfl
  have sought : (c == '?' || c == ':') = true := by
    rcases sign with rfl | rfl <;> rfl
  unfold role unquoted
  rw [other, sought, Bool.and_false, Bool.true_and]
  cases reading.ssq <;> cases reading.dsq <;> simp

theorem unquoted_after (text : Str) :
    (start.after text).unquoted = true ↔
      text.count '\'' % 2 = 0 ∧ text.count '"' % 2 = 0 := by
  have single := @flag_after Reading.ssq '\'' (fun _ _ => rfl) start text
  have double := @flag_after Reading.dsq '"' (fun _ _ => rfl) start text
  unfold unquoted
  rw [single, double]
  simp [start]

end Reading

/-- The character at a position starts a placeholder. -/
def StartsPlaceholder (statement : Str) (position : Nat) : Prop :=
  ∃ c, (Reading.start.roles statement)[position]? = some (c, .mark)

theorem startsPlaceholder_iff (before : Str) {c : Char} (rest : Str)
    (sign : c = '?' ∨ c = ':') :
    StartsPlaceholder (before ++ c :: rest) before.length ↔
      before.count '\'' % 2 = 0 ∧ before.count '"' % 2 = 0 := by
  rw [← Reading.unquoted_after, ← Reading.role_mark_iff _ sign]
  unfold StartsPlaceholder
  rw [Reading.roles_at]
  simp

/-- The two flags are right about the end of the text.  Outside the quotes
both numbers of misread quote characters are even; inside, they do not make
up for the quote that is open. -/
def FlagsRight (text : Str) : Prop :=
  match Quote.outside.after text with
  | .outside =>
      Quote.outside.doubleInLiterals text % 2 = 0 ∧
        Quote.outside.singleInIdentifiers text % 2 = 0
  | .literal =>
      Quote.outside.doubleInLiterals text % 2 = 1 ∨
        Quote.outside.singleInIdentifiers text % 2 = 0
  | .identifier =>
      Quote.outside.doubleInLiterals text % 2 = 0 ∨
        Quote.outside.singleInIdentifiers text % 2 = 1

theorem flagsRight_iff (text : Str) :
    FlagsRight text ↔
      (text.count '\'' % 2 = 0 ∧ text.count '"' % 2 = 0 ↔
        Quote.outside.after text = .outside) := by
  have single := Quote.count_single .outside text
  have double := Quote.count_double .outside text
  unfold FlagsRight
  cases state : Quote.outside.after text
  all_goals
    simp only [state, reduceCtorEq, ↓reduceIte, iff_true, iff_false]
      at single double ⊢
    omega

/-- `parse` replaces the marks of the statement and copies the rest.  It
takes exactly the question marks and colons outside the quotes for
placeholders if and only if the flags are right at all of them. -/
theorem placeholders_outside_quotes (dcl : Dcl) (statement : Str) :
    parse dcl statement =
        some (render dcl 0 (Reading.start.roles statement)) ∧
      ((∀ before c rest, statement = before ++ c :: rest →
          c = '?' ∨ c = ':' →
          (StartsPlaceholder statement before.length ↔
            Quote.outside.after before = .outside)) ↔
        ∀ before c rest, statement = before ++ c :: rest →
          c = '?' ∨ c = ':' → FlagsRight before) := by
  constructor
  · exact parse_eq dcl statement
  constructor
  · intro recognised before c rest whole sign
    apply (flagsRight_iff before).mpr
    have here := recognised before c rest whole sign
    rw [whole, startsPlaceholder_iff before rest sign] at here
    exact here
  · intro right before c rest whole sign
    rw [whole, startsPlaceholder_iff before rest sign]
    exact (flagsRight_iff before).mp (right before c rest whole sign)

/-- After a literal that holds a double quote, no placeholder is found. -/
theorem placeholder_missed :
    ¬ (∀ before c rest, "select '\"', ?".toList = before ++ c :: rest →
      c = '?' ∨ c = ':' →
      (StartsPlaceholder "select '\"', ?".toList before.length ↔
        Quote.outside.after before = .outside)) := by
  intro recognised
  have here := recognised "select '\"', ".toList '?' [] rfl (.inl rfl)
  obtain ⟨c, found⟩ := here.mpr rfl
  have role : some Role.copied = some Role.mark :=
    congrArg (Option.map Prod.snd) found
  cases role

/-- The character at a position is copied into the query. -/
def Copied (statement : Str) (position : Nat) : Prop :=
  ∃ c, (Reading.start.roles statement)[position]? = some (c, .copied)

/-- The character at a position starts a placeholder that has a name. -/
def StartsNamed (statement : Str) (position : Nat) : Prop :=
  StartsPlaceholder statement position ∧
    ∃ c, (Reading.start.roles statement)[position + 1]? = some (c, .name)

/-- The cast operators outside the quotes are copied, and a name is read only
after a single colon. -/
def CastsSurvive (statement : Str) : Prop :=
  (∀ before rest, statement = before ++ ':' :: ':' :: rest →
    Quote.outside.after before = .outside →
    Copied statement before.length ∧ Copied statement (before.length + 1)) ∧
  ∀ before c rest, statement = before ++ c :: rest →
    StartsNamed statement before.length →
    c = ':' ∧ before.getLast? ≠ some ':' ∧
      ∃ d ∈ rest.head?, isParamChar d = true

/-- Both kinds of quote characters come in pairs, so that the flags are
off. -/
def EvenQuotes (text : Str) : Prop :=
  text.count '\'' % 2 = 0 ∧ text.count '"' % 2 = 0

theorem evenQuotes_colon (text : Str) :
    EvenQuotes (text ++ [':']) ↔ EvenQuotes text := by
  simp [EvenQuotes]

theorem colon_copied_iff (before rest : Str) :
    Copied (before ++ ':' :: rest) before.length ↔ ¬ EvenQuotes before := by
  have marked := Reading.role_mark_iff (Reading.start.after before)
    (.inr rfl : ':' = '?' ∨ ':' = ':')
  rw [Reading.unquoted_after] at marked
  unfold EvenQuotes Copied
  rw [← marked, Reading.roles_at]
  have other : (Reading.start.after before).role ':' ≠ .name := by
    simp [Reading.role, show isParamChar ':' = false from rfl]
    split <;> simp
  cases role : (Reading.start.after before).role ':' with
  | copied => simp
  | mark => simp
  | name => exact absurd role other

theorem role_eq_mark {reading : Reading} {c : Char}
    (marked : reading.role c = .mark) : c = '?' ∨ c = ':' := by
  unfold Reading.role at marked
  split at marked
  · cases marked
  · split at marked
    · rename_i sign
      simp only [Bool.and_eq_true, Bool.or_eq_true, beq_iff_eq] at sign
      exact sign.1.1
    · cases marked

theorem role_eq_name {reading : Reading} {c : Char} :
    reading.role c = .name ↔
      reading.naming = true ∧ isParamChar c = true := by
  unfold Reading.role
  split
  · rename_i named
    simpa using named
  · rename_i unnamed
    constructor
    · intro named
      split at named <;> cases named
    · intro named
      rw [named.1, named.2] at unnamed
      exact absurd rfl unnamed

/-- Only a colon with the flags off and a name behind it starts a named
placeholder. -/
theorem startsNamed_iff (before : Str) (c : Char) (rest : Str) :
    StartsNamed (before ++ c :: rest) before.length ↔
      c = ':' ∧ EvenQuotes before ∧
        ∃ d ∈ rest.head?, isParamChar d = true := by
  have follows (d : Char) (later : Str) :
      (Reading.start.roles (before ++ c :: d :: later))[before.length + 1]? =
        some (d, ((Reading.start.after before).next c).role d) := by
    have found := Reading.roles_at Reading.start (before ++ [c]) d later
    simpa [Reading.after] using found
  constructor
  · rintro ⟨⟨marked, found⟩, d, named⟩
    rw [Reading.roles_at] at found
    have role : (Reading.start.after before).role c = .mark := by
      simpa using congrArg (Option.map Prod.snd) found
    have sign := role_eq_mark role
    have even := (Reading.unquoted_after before).mp
      ((Reading.role_mark_iff _ sign).mp role)
    cases rest with
    | nil =>
        have ended : (Reading.start.roles (before ++ [c]))[before.length + 1]? =
            none := by
          rw [List.getElem?_eq_none_iff, Reading.length_roles]
          simp
        rw [ended] at named
        cases named
    | cons first later =>
        rw [follows] at named
        have name : ((Reading.start.after before).next c).role first = .name := by
          simpa using congrArg (Option.map Prod.snd) named
        obtain ⟨naming, param⟩ := role_eq_name.mp name
        have colon : c = ':' := by
          simpa [Reading.next, role] using naming
        exact ⟨colon, even, first, rfl, param⟩
  · rintro ⟨rfl, even, d, head, param⟩
    obtain ⟨later, rfl⟩ : ∃ later, rest = d :: later := by
      cases rest with
      | nil => cases head
      | cons first later =>
          cases head
          exact ⟨later, rfl⟩
    have role : (Reading.start.after before).role ':' = .mark :=
      (Reading.role_mark_iff _ (.inr rfl)).mpr
        ((Reading.unquoted_after before).mpr even)
    constructor
    · exact ⟨':', by rw [Reading.roles_at, role]⟩
    · have name : ((Reading.start.after before).next ':').role d = .name := by
        apply role_eq_name.mpr
        simp [Reading.next, role, param]
      exact ⟨d, by rw [follows, name]⟩

/-- The cast operators survive exactly when every one at which the flags are
off lies inside the quotes and has no name behind it. -/
theorem casts_survive_iff (dcl : Dcl) (statement : Str) :
    parse dcl statement =
        some (render dcl 0 (Reading.start.roles statement)) ∧
      (CastsSurvive statement ↔
        ∀ before rest, statement = before ++ ':' :: ':' :: rest →
          EvenQuotes before →
          Quote.outside.after before ≠ .outside ∧
            ∀ d ∈ rest.head?, isParamChar d = false) := by
  constructor
  · exact parse_eq dcl statement
  constructor
  · rintro ⟨copies, names⟩ before rest whole even
    constructor
    · intro outside
      have copied := (copies before rest whole outside).1
      rw [whole] at copied
      exact (colon_copied_iff before (':' :: rest)).mp copied even
    · intro d head
      apply Bool.eq_false_iff.mpr
      intro param
      -- The second colon starts a placeholder with the name behind it.
      have second : statement = (before ++ [':']) ++ ':' :: rest := by
        rw [whole, List.append_assoc]
        rfl
      have named := (startsNamed_iff (before ++ [':']) ':' rest).mpr
        ⟨rfl, (evenQuotes_colon before).mpr even, d, head, param⟩
      rw [← second] at named
      have single := (names _ _ _ second named).2.1
      exact single (by simp)
  · intro safe
    constructor
    · intro before rest whole outside
      have odd : ¬ EvenQuotes before := by
        intro even
        exact (safe before rest whole even).1 outside
      have second : before ++ ':' :: ':' :: rest =
          (before ++ [':']) ++ ':' :: rest := by
        rw [List.append_assoc]
        rfl
      constructor
      · rw [whole]
        exact (colon_copied_iff before (':' :: rest)).mpr odd
      · have later := (colon_copied_iff (before ++ [':']) rest).mpr
          (mt (evenQuotes_colon before).mp odd)
        rw [whole, second]
        simpa using later
    · intro before c rest whole named
      rw [whole] at named
      obtain ⟨rfl, even, d, head, param⟩ := (startsNamed_iff before c rest).mp
        named
      refine ⟨rfl, ?_, d, head, param⟩
      intro last
      obtain ⟨first, rfl⟩ := List.getLast?_eq_some_iff.mp last
      have pair : statement = first ++ ':' :: ':' :: rest := by
        rw [whole, List.append_assoc]
        rfl
      have unnamed := (safe first rest pair
        ((evenQuotes_colon first).mp even)).2 d head
      rw [param] at unnamed
      cases unnamed

/-- Both colons of a cast become parameters. -/
theorem cast_lost : ¬ CastsSurvive "select 1::int".toList := by
  intro survive
  obtain ⟨c, copied⟩ := (survive.1 "select 1".toList "int".toList rfl rfl).1
  have role : some Role.mark = some Role.copied :=
    congrArg (Option.map Prod.snd) copied
  cases role

end TagQuery

end Pgsql

end DbPager
