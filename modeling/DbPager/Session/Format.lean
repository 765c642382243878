import DbPager.Plain
import Mathlib.Data.List.TakeWhile

/-!
# Session holders

The internal, the redis and the memcached holder keep the user variables of a
session as one text `K=V;K=V`.  They differ only in where the text goes: the
internal holder has a buffer of its own, the others put it on a server.  Here
the text is shown to give back the saved variables exactly as long as no value
contains the separator of the format.
-/

namespace DbPager

namespace Session

/-- The loop of `save` over the variables. -/
def writeText : List (Sigma fun _ : Str => Str) → Str
  | [] => []
  | [entry] => entry.1 ++ '=' :: entry.2
  | entry :: next :: entries =>
      entry.1 ++ '=' :: entry.2 ++ ';' :: writeText (next :: entries)

/-- The bindings `load` finds in a text; those without a name are skipped. -/
def readText (dcl : Dcl) (text : Str) : List (Str × Str) :=
  ((dcl.tokenize text ";".toList).map
    fun token => dcl.tokenizePair token "=".toList).filter
      fun binding => !binding.1.isEmpty

/-- The text `save` stores; nothing is stored for an empty context. -/
def savedText (user : Context) : Option Str :=
  if user.empty then none else some (writeText user.getValues.entries)

/-- `http_cookie`, with the date of its expiry. -/
structure Cookie where
  name : Str
  value : Str
  path : Str
  httpOnly : Bool
  sameSite : Str
  secure : Bool
  partitioned : Bool
  expires : Option (Nat × Nat × Nat)
  deriving DecidableEq

/-- The part of a holder that does not depend on where the text goes. -/
structure Holder where
  id : Str
  isNew : Bool
  isHttps : Bool
  deriving DecidableEq

namespace Holder

/-- A holder for a request without a session cookie.  The identifier is the
next value of `dbp::uuid`. -/
def new (uuid : Str) (isHttps : Bool) : Holder :=
  { id := uuid, isNew := true, isHttps }

/-- A holder for a session cookie. -/
def ofId (uuid sessionId : Str) (isHttps : Bool) : Holder :=
  if sessionId.isEmpty then new uuid isHttps
  else { id := sessionId, isNew := false, isHttps }

/-- `create_session`: the first cookie called `session` counts. -/
def create (uuid : Str) (isHttps : Bool) : List (Str × Str) → Holder
  | [] => new uuid isHttps
  | cookie :: cookies =>
      if cookie.1 = "session".toList then ofId uuid cookie.2 isHttps
      else create uuid isHttps cookies

def cookie (holder : Holder) (value : Str)
    (expires : Option (Nat × Nat × Nat)) : Cookie :=
  { name := "session".toList
    value
    path := "/".toList
    httpOnly := true
    sameSite := if holder.isHttps then "none".toList else []
    secure := holder.isHttps
    partitioned := holder.isHttps
    expires }

/-- The cookies `save` sets in the response. -/
def cookies (holder : Holder) (user : Context) : List Cookie :=
  (if holder.isNew && !user.empty then [holder.cookie holder.id none]
    else []) ++
  (if holder.id.isEmpty then [holder.cookie [] (some (1976, 4, 21))]
    else [])

end Holder

/-- `session_holder_int`: the buffer is a member of the holder. -/
structure HolderInt extends Holder where
  buffer : Vars

namespace HolderInt

/-- `session_int::create_session`. -/
def create (uuid : Str) (isHttps : Bool) (cookies : List (Str × Str)) :
    HolderInt :=
  { Holder.create uuid isHttps cookies with buffer := ∅ }

def getValue (holder : HolderInt) (key : Str) : Str :=
  (holder.buffer.lookup key).getD []

def putValue (holder : HolderInt) (key value : Str) : HolderInt :=
  { holder with buffer := holder.buffer.insert key value }

def load (dcl : Dcl) (holder : HolderInt) (user : Context) : Context :=
  user.addValues (readText dcl (holder.getValue holder.id))

def save (holder : HolderInt) (user : Context) : HolderInt :=
  match savedText user with
  | none => holder
  | some text => holder.putValue holder.id text

end HolderInt

/-- The servers the other two holders use. -/
inductive Server where
  | redis
  | memcached
  deriving DecidableEq

namespace Server

/-- The key under which a text is kept: redis gets a C string. -/
def key : Server → Str → Str
  | .redis, key => cString key
  | .memcached, key => key

/-- What `put_value` sends: redis gets a C string. -/
def sent : Server → Str → Str
  | .redis, value => cString value
  | .memcached, value => value

/-- Both holders read the answer as a C string. -/
def getValue (server : Server) (store : Vars) (key : Str) : Str :=
  cString ((store.lookup (server.key key)).getD [])

def putValue (server : Server) (store : Vars) (key value : Str) : Vars :=
  store.insert (server.key key) (server.sent value)

def load (dcl : Dcl) (server : Server) (store : Vars) (id : Str)
    (user : Context) : Context :=
  user.addValues (readText dcl (server.getValue store id))

def save (server : Server) (store : Vars) (id : Str) (user : Context) :
    Vars :=
  match savedText user with
  | none => store
  | some text => server.putValue store id text

end Server

/-! ## The text format -/

/-- What the holders rely on: `tokenize` cuts a text at every separator,
whether or not it lists the empty tokens, and its two-part form cuts at the
first separator. -/
structure Cuts (dcl : Dcl) : Prop where
  tokenize : ∀ text,
    (dcl.tokenize text ";".toList).filter (fun token => !token.isEmpty) =
      (text.splitOn ';').filter fun token => !token.isEmpty
  tokenizePair : ∀ text,
    dcl.tokenizePair text "=".toList =
      (text.takeWhile (· != '='), (text.dropWhile (· != '=')).tail)

theorem Cuts.plain : Cuts .plain where
  tokenize text := by
    cases text with
    | nil => rfl
    | cons c text =>
        have set : (fun d => ";".toList.contains d) = (· == ';') := by
          funext d
          rw [Bool.eq_iff_iff]
          simp [show ";".toList = [';'] from rfl]
        simp only [Dcl.plain, cutAll, set, List.splitOn_eq_splitOnP]
        rfl
  tokenizePair text := by
    have set : (fun d => !"=".toList.contains d) = (· != '=') := by
      funext d
      rw [Bool.eq_iff_iff]
      simp [show "=".toList = ['='] from rfl]
    simp only [Dcl.plain, cutFirst, set]

/-- The text of one variable. -/
def entryText (entry : Sigma fun _ : Str => Str) : Str :=
  entry.1 ++ '=' :: entry.2

theorem writeText_eq_intercalate (entries : List (Sigma fun _ : Str => Str)) :
    writeText entries = [';'].intercalate (entries.map entryText) := by
  induction entries with
  | nil => rfl
  | cons entry entries induction =>
      cases entries with
      | nil => simp [writeText, entryText]
      | cons next entries =>
          rw [writeText, induction]
          simp [entryText, List.intercalate_cons_cons]

/-- A piece of a text has the characters of the text but the separator. -/
theorem mem_splitOn {a : Char} {text token : Str}
    (member : token ∈ text.splitOn a) : a ∉ token ∧ token ⊆ text := by
  induction text generalizing token with
  | nil =>
      have empty : token = [] := by simpa using member
      simp [empty]
  | cons c text induction =>
      rw [List.splitOn_cons_eq_if_modifyHead] at member
      by_cases same : c = a
      · simp only [same, BEq.rfl, if_true, List.mem_cons] at member
        rcases member with empty | rest
        · simp [empty]
        · have inner := induction rest
          exact ⟨inner.1, List.subset_cons_of_subset c inner.2⟩
      · have other : (c == a) = false := by simpa using same
        rw [other] at member
        cases pieces : text.splitOn a with
        | nil => simp at pieces
        | cons first others =>
            simp only [pieces, Bool.false_eq_true, if_false,
              List.modifyHead_cons, List.mem_cons] at member
            rcases member with head | rest
            · subst head
              have inner := induction (by simp [pieces] : first ∈ _)
              constructor
              · simp [inner.1, Ne.symm same]
              · exact List.cons_subset_cons c inner.2
            · have inner := induction (by simp [pieces, rest] : token ∈ _)
              exact ⟨inner.1, List.subset_cons_of_subset c inner.2⟩

section Format

variable {dcl : Dcl} (cuts : Cuts dcl)

include cuts

/-- Empty tokens have no name, so it does not matter if they are listed. -/
theorem readText_eq (text : Str) :
    readText dcl text =
      (((text.splitOn ';').filter fun token => !token.isEmpty).map
        fun token => (token.takeWhile (· != '='),
          (token.dropWhile (· != '=')).tail)).filter
            fun binding => !binding.1.isEmpty := by
  have skip : ∀ tokens : List Str,
      (tokens.map fun token => dcl.tokenizePair token "=".toList).filter
          (fun binding => !binding.1.isEmpty) =
        ((tokens.filter fun token => !token.isEmpty).map
          fun token => dcl.tokenizePair token "=".toList).filter
            fun binding => !binding.1.isEmpty := by
    intro tokens
    induction tokens with
    | nil => rfl
    | cons token tokens induction =>
        cases token with
        | nil =>
            have empty : dcl.tokenizePair [] "=".toList = ([], []) :=
              cuts.tokenizePair []
            simp only [List.map_cons, List.filter_cons, empty,
              List.isEmpty_nil, Bool.not_true, Bool.false_eq_true, if_false,
              induction]
        | cons c token =>
            simp only [List.map_cons, List.filter_cons, List.isEmpty_cons,
              Bool.not_false, if_true, induction]
  rw [readText, skip, cuts.tokenize]
  simp only [cuts.tokenizePair]

/-- What is read has no separator, and no character the text has not. -/
theorem mem_readText {text : Str} {binding : Str × Str}
    (member : binding ∈ readText dcl text) :
    binding.1 ≠ [] ∧ '=' ∉ binding.1 ∧
      (';' ∉ binding.1 ∧ binding.1 ⊆ text) ∧
      (';' ∉ binding.2 ∧ binding.2 ⊆ text) := by
  rw [readText_eq cuts] at member
  simp only [List.mem_filter, List.mem_map] at member
  obtain ⟨⟨token, ⟨piece, _⟩, rfl⟩, named⟩ := member
  have inner := mem_splitOn piece
  have left : token.takeWhile (· != '=') ⊆ token :=
    List.takeWhile_subset _
  have right : (token.dropWhile (· != '=')).tail ⊆ token :=
    List.Subset.trans (List.tail_sublist _).subset (List.dropWhile_subset _)
  refine ⟨by simpa using named, ?_, ⟨?_, ?_⟩, ?_, ?_⟩
  · intro inside
    simpa using List.mem_takeWhile_imp inside
  · intro inside
    exact inner.1 (left inside)
  · exact List.Subset.trans left inner.2
  · intro inside
    exact inner.1 (right inside)
  · exact List.Subset.trans right inner.2

/-- The text gives back what it was written from. -/
theorem readText_writeText {entries : List (Sigma fun _ : Str => Str)}
    (some : entries ≠ [])
    (names : ∀ entry ∈ entries,
      entry.1 ≠ [] ∧ '=' ∉ entry.1 ∧ ';' ∉ entry.1)
    (values : ∀ entry ∈ entries, ';' ∉ entry.2) :
    readText dcl (writeText entries) =
      entries.map fun entry => (entry.1, entry.2) := by
  have pieces : (writeText entries).splitOn ';' = entries.map entryText := by
    rw [writeText_eq_intercalate]
    apply List.splitOn_intercalate
    · intro token member
      obtain ⟨entry, inside, rfl⟩ := List.mem_map.mp member
      simp [entryText, (names entry inside).2.2, values entry inside]
    · simpa using some
  rw [readText_eq cuts, pieces]
  clear pieces some
  induction entries with
  | nil => rfl
  | cons entry entries induction =>
      have head := names entry List.mem_cons_self
      have rest := induction
        (fun entry inside => names entry (List.mem_cons_of_mem _ inside))
        (fun entry inside => values entry (List.mem_cons_of_mem _ inside))
      have whole : ∀ c ∈ entry.1, (c != '=') = true := by
        intro c inside
        simp only [bne_iff_ne, ne_eq]
        intro same
        exact head.2.1 (same ▸ inside)
      have name : (entryText entry).takeWhile (· != '=') = entry.1 := by
        rw [entryText, List.takeWhile_append_of_pos whole]
        simp
      have value :
          ((entryText entry).dropWhile (· != '=')).tail = entry.2 := by
        rw [entryText, List.dropWhile_append_of_pos whole]
        simp
      have listed : (entryText entry).isEmpty = false := by
        simp [entryText]
      have kept : entry.1.isEmpty = false := by
        simpa using head.1
      simp only [List.map_cons, List.filter_cons, listed, Bool.not_false,
        if_true, name, value, kept, rest]

end Format

/-! ## The round trip -/

/-- The names of user variables: upper-case and free of the separators. -/
def Named (vars : Vars) : Prop :=
  ∀ name ∈ vars, name ≠ [] ∧ upName name = name ∧ '=' ∉ name ∧ ';' ∉ name

/-- No value contains the separator of the format. -/
def NoSeparator (vars : Vars) : Prop :=
  ∀ name value, vars.lookup name = some value → ';' ∉ value

/-- No name and no value contains a NUL. -/
def NoNul (vars : Vars) : Prop :=
  ∀ name value, vars.lookup name = some value →
    Char.ofNat 0 ∉ name ∧ Char.ofNat 0 ∉ value

/-- The variables of a context are the given ones. -/
def SameVars (context : Context) (vars : Vars) : Prop :=
  ∀ name, findVar name context.stack = vars.lookup name

theorem insert_entries {entries : List (Sigma fun _ : Str => Str)}
    (nodup : entries.NodupKeys) :
    (entries.foldr (fun entry vars => vars.insert entry.1 entry.2)
      (∅ : Vars)).entries = entries := by
  induction entries with
  | nil => rfl
  | cons entry entries induction =>
      have parts := List.nodupKeys_cons.mp nodup
      have rest := induction parts.2
      rw [List.foldr_cons, AList.entries_insert_of_notMem, rest]
      intro member
      apply parts.1
      rw [AList.mem_keys, AList.keys, rest] at member
      exact member

/-- A context of one layer has the variables of that layer. -/
@[simp] theorem getValues_ofUser (vars : Vars) :
    (Context.ofUser vars).getValues = vars := by
  apply AList.ext
  exact insert_entries vars.nodupKeys

theorem savedText_ofUser {vars : Vars} (filled : vars.entries ≠ []) :
    savedText (Context.ofUser vars) = some (writeText vars.entries) := by
  have listed : (Context.ofUser vars).empty = false := by
    simpa [Context.empty, Context.ofUser] using filled
  rw [savedText, listed, getValues_ofUser]
  rfl

/-- The variables of a fresh user context after a load. -/
theorem findVar_newUser (key : Str) (bindings : List (Str × Str)) :
    findVar key (Context.newUser.addValues bindings).stack =
      lastBinding key bindings :=
  findVar_new Context.userType key bindings

theorem lastBinding_entries {entries : List (Sigma fun _ : Str => Str)}
    (nodup : entries.NodupKeys)
    (upper : ∀ entry ∈ entries, upName entry.1 = entry.1) (key : Str) :
    lastBinding key (entries.map fun entry => (entry.1, entry.2)) =
      entries.dlookup key := by
  induction entries with
  | nil => rfl
  | cons entry entries induction =>
      have parts := List.nodupKeys_cons.mp nodup
      have rest := induction parts.2
        (fun entry inside => upper entry (List.mem_cons_of_mem _ inside))
      rw [List.map_cons, lastBinding, rest, upper entry List.mem_cons_self]
      by_cases same : entry.1 = key
      · subst same
        have absent : entries.dlookup entry.1 = none :=
          List.dlookup_eq_none.mpr parts.1
        rw [absent, if_pos rfl]
        exact (List.dlookup_cons_eq entries entry.1 entry.2).symm
      · rw [if_neg same, Option.or_none]
        exact (List.dlookup_cons_ne entries entry (Ne.symm same)).symm

theorem mem_vars {vars : Vars} {entry : Sigma fun _ : Str => Str}
    (member : entry ∈ vars.entries) :
    vars.lookup entry.1 = some entry.2 :=
  AList.mem_lookup_iff.mpr member

section RoundTrip

variable {dcl : Dcl} (cuts : Cuts dcl)

include cuts

/-- The text of the variables gives the variables back. -/
theorem sameVars_of_noSeparator {vars : Vars} (filled : vars.entries ≠ [])
    (named : Named vars) (plain : NoSeparator vars) :
    SameVars
      (Context.newUser.addValues (readText dcl (writeText vars.entries)))
      vars := by
  have names : ∀ entry ∈ vars.entries,
      entry.1 ≠ [] ∧ upName entry.1 = entry.1 ∧ '=' ∉ entry.1 ∧
        ';' ∉ entry.1 := by
    intro entry member
    apply named
    exact AList.mem_keys.mpr (List.mem_map_of_mem member)
  intro name
  rw [findVar_newUser, readText_writeText cuts filled]
  · rw [lastBinding_entries vars.nodupKeys
      fun entry member => (names entry member).2.1]
    rfl
  · intro entry member
    have all := names entry member
    exact ⟨all.1, all.2.2⟩
  · intro entry member
    exact plain entry.1 entry.2 (mem_vars member)

/-- Variables that come from a text have no separator in their values, and
no character below the letters that the text has not. -/
theorem chars_of_sameVars {text : Str} {vars : Vars}
    (same : SameVars (Context.newUser.addValues (readText dcl text)) vars) :
    ∀ name value, vars.lookup name = some value →
      ';' ∉ value ∧ value ⊆ text ∧
        ∀ c ∈ name, c.val.toNat < 65 → c ∈ text := by
  intro name value found
  rw [← same name, findVar_newUser] at found
  obtain ⟨original, member, upper⟩ := mem_of_lastBinding found
  obtain ⟨_, _, ⟨_, nameInside⟩, plain, valueInside⟩ :=
    mem_readText cuts member
  refine ⟨plain, valueInside, ?_⟩
  intro c inside below
  rw [← upper, upName, List.mem_map] at inside
  obtain ⟨d, member, shift⟩ := inside
  have equal : d = c := eq_of_toUpper_eq shift below
  exact nameInside (equal ▸ member)

end RoundTrip

/-- A text without NUL reaches the server and comes back; of any text the
part before the first NUL comes back. -/
theorem Server.getValue_putValue (server : Server) (store : Vars)
    (id text : Str) :
    server.getValue (server.putValue store id text) id = cString text := by
  have kept : server.getValue (server.putValue store id text) id =
      cString (server.sent text) := by
    simp [Server.getValue, Server.putValue, AList.lookup_insert]
  rw [kept]
  cases server with
  | redis => exact cString_eq_self (not_mem_cString text)
  | memcached => rfl

theorem not_mem_writeText {vars : Vars} (plain : NoNul vars) :
    Char.ofNat 0 ∉ writeText vars.entries := by
  have entries : ∀ entry ∈ vars.entries,
      Char.ofNat 0 ∉ entry.1 ∧ Char.ofNat 0 ∉ entry.2 := by
    intro entry member
    exact plain entry.1 entry.2 (mem_vars member)
  generalize vars.entries = listed at entries
  induction listed with
  | nil => simp [writeText]
  | cons entry listed induction =>
      have head := entries entry List.mem_cons_self
      have rest := induction
        (fun entry inside => entries entry (List.mem_cons_of_mem _ inside))
      have equal : Char.ofNat 0 ≠ '=' := by decide
      have semicolon : Char.ofNat 0 ≠ ';' := by decide
      cases listed with
      | nil => simp [writeText, head, equal]
      | cons next listed => simp [writeText, head, equal, semicolon, rest]

/-- What was saved for a session is what the next load brings back. -/
def HolderInt.Returns (dcl : Dcl) (holder : HolderInt) (vars : Vars) : Prop :=
  SameVars ((holder.save (Context.ofUser vars)).load dcl Context.newUser) vars

def Server.Returns (dcl : Dcl) (server : Server) (store : Vars) (id : Str)
    (vars : Vars) : Prop :=
  SameVars (server.load dcl (server.save store id (Context.ofUser vars)) id
    Context.newUser) vars

theorem HolderInt.load_save (dcl : Dcl) (holder : HolderInt) {vars : Vars}
    (filled : vars.entries ≠ []) :
    (holder.save (Context.ofUser vars)).load dcl Context.newUser =
      Context.newUser.addValues (readText dcl (writeText vars.entries)) := by
  rw [HolderInt.save, savedText_ofUser filled]
  simp [HolderInt.load, HolderInt.getValue, HolderInt.putValue,
    AList.lookup_insert]

theorem Server.load_save (dcl : Dcl) (server : Server) (store : Vars)
    (id : Str) {vars : Vars} (filled : vars.entries ≠ []) :
    server.load dcl (server.save store id (Context.ofUser vars)) id
        Context.newUser =
      Context.newUser.addValues
        (readText dcl (cString (writeText vars.entries))) := by
  rw [Server.save, savedText_ofUser filled, Server.load,
    Server.getValue_putValue]

theorem Server.returns_of_plain {dcl : Dcl} (cuts : Cuts dcl)
    (server : Server) (store : Vars) (id : Str) {vars : Vars}
    (filled : vars.entries ≠ []) (named : Named vars)
    (plain : NoSeparator vars) (noNul : NoNul vars) :
    server.Returns dcl store id vars := by
  rw [Server.Returns, Server.load_save dcl server store id filled,
    cString_eq_self (not_mem_writeText noNul)]
  exact sameVars_of_noSeparator cuts filled named plain

/-- A session comes back as it was saved exactly when no value contains the
separator of the format and, for the servers, nothing contains a NUL. -/
theorem session_round_trip {dcl : Dcl} (cuts : Cuts dcl) {vars : Vars}
    (filled : vars.entries ≠ []) (named : Named vars) :
    (∀ holder : HolderInt, holder.Returns dcl vars ↔ NoSeparator vars) ∧
    ∀ (server : Server) (store : Vars) (id : Str),
      server.Returns dcl store id vars ↔ NoSeparator vars ∧ NoNul vars := by
  constructor
  · intro holder
    rw [HolderInt.Returns, HolderInt.load_save dcl holder filled]
    constructor
    · intro same name value found
      exact (chars_of_sameVars cuts same name value found).1
    · intro plain
      exact sameVars_of_noSeparator cuts filled named plain
  · intro server store id
    constructor
    · intro same
      rw [Server.Returns, Server.load_save dcl server store id filled]
        at same
      have chars := chars_of_sameVars cuts same
      have absent := not_mem_cString (writeText vars.entries)
      constructor
      · intro name value found
        exact (chars name value found).1
      · intro name value found
        have parts := chars name value found
        constructor
        · intro inside
          exact absent (parts.2.2 _ inside (by decide))
        · intro inside
          exact absent (parts.2.1 inside)
    · rintro ⟨plain, noNul⟩
      exact Server.returns_of_plain cuts server store id filled named plain
        noNul

/-- One variable with one value. -/
def single (name value : Str) : Vars :=
  AList.singleton name value

theorem named_single {name value : Str}
    (plain : name ≠ [] ∧ upName name = name ∧ '=' ∉ name ∧ ';' ∉ name) :
    Named (single name value) := by
  intro other member
  rw [AList.mem_keys, single, AList.keys_singleton, List.mem_singleton]
    at member
  rw [member]
  exact plain

theorem lookup_single {name value key found : Str}
    (bound : (single name value).lookup key = some found) :
    key = name ∧ found = value := by
  have member := AList.mem_lookup_iff.mp (Option.mem_def.mpr bound)
  rw [single, AList.singleton_entries, List.mem_singleton] at member
  cases member
  exact ⟨rfl, rfl⟩

theorem session_round_trip_equals_sign :
    Server.Returns .plain .redis ∅ "id".toList
      (single "QUERY".toList "a=b&c=d".toList) := by
  have filled : (single "QUERY".toList "a=b&c=d".toList).entries ≠ [] := by
    decide
  have trip := session_round_trip Cuts.plain filled
    (named_single (by decide))
  apply (trip.2 .redis ∅ "id".toList).mpr
  constructor
  · intro name value found
    rw [(lookup_single found).2]
    decide
  · intro name value found
    rw [(lookup_single found).1, (lookup_single found).2]
    decide

/-- A value with a separator is cut off, and what follows the separator
becomes another variable. -/
theorem separator_makes_variable :
    Cuts .plain ∧
    (single "A".toList "x;B=y".toList).entries ≠ [] ∧
    Named (single "A".toList "x;B=y".toList) ∧
    (∀ holder : HolderInt,
      ¬ holder.Returns .plain (single "A".toList "x;B=y".toList)) ∧
    (readText .plain (writeText (single "A".toList "x;B=y".toList).entries)) =
      [("A".toList, "x".toList), ("B".toList, "y".toList)] := by
  refine ⟨Cuts.plain, by decide, named_single (by decide), ?_, by decide⟩
  intro holder returned
  rw [HolderInt.Returns, HolderInt.load_save _ _ (by decide)] at returned
  have other := returned "B".toList
  rw [findVar_newUser] at other
  revert other
  decide

end Session

end DbPager
