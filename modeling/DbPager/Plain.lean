import DbPager.Interpreter

/-!
# A plain world

A simple implementation of the support library, and a world in which no
file, process or server can be reached.  They stand in for the parameters of
the model when it is run on a concrete script.
-/

namespace DbPager

open Effect

/-- The digits of a natural number. -/
def parseNat (text : Str) : Option Nat :=
  if text.isEmpty || !text.all Char.isDigit then none
  else some (text.foldl (fun number c => 10 * number + (c.toNat - 48)) 0)

def parseInt : Str → Option Int
  | '-' :: digits => (parseNat digits).map fun number => -(number : Int)
  | digits => (parseNat digits).map fun number => (number : Int)

def printInt (number : Int) : Str :=
  (toString number).toList

/-- Cut a text at every separator; an empty text has no tokens. -/
def cutAll (text separators : Str) : List Str :=
  if text.isEmpty then []
  else text.splitOnP fun c => separators.contains c

/-- Cut a text at the first separator. -/
def cutFirst (text separators : Str) : Str × Str :=
  (text.takeWhile fun c => !separators.contains c,
    (text.dropWhile fun c => !separators.contains c).tail)

/-- The first piece of a cut text is the beginning of the text. -/
theorem splitOnP_infix (separates : Char → Bool) (text : Str) :
    ∃ first rest, text.splitOnP separates = first :: rest ∧
      first <+: text ∧ ∀ piece ∈ rest, piece <:+: text := by
  induction text with
  | nil => exact ⟨[], [], rfl, List.nil_prefix, by simp⟩
  | cons c text induction =>
      obtain ⟨first, rest, cut, start, pieces⟩ := induction
      have later : ∀ piece ∈ rest, piece <:+: c :: text := by
        intro piece member
        exact (pieces piece member).trans (List.suffix_cons c text).isInfix
      rw [List.splitOnP_cons_eq_if_modifyHead, cut]
      by_cases here : separates c
      · rw [if_pos here]
        apply Exists.intro []
        apply Exists.intro (first :: rest)
        constructor
        · rfl
        constructor
        · exact List.nil_prefix
        · intro piece member
          rcases List.mem_cons.mp member with rfl | member
          · exact start.isInfix.trans (List.suffix_cons c text).isInfix
          · exact later piece member
      · rw [if_neg here]
        exact ⟨c :: first, rest, rfl, (List.prefix_cons_inj c).mpr start,
          later⟩

/-- A simple support library, with integers for numbers. -/
def Dcl.plain : Dcl where
  tokenize := cutAll
  tokenizePair := cutFirst
  trim text :=
    ((text.dropWhile isSpace).reverse.dropWhile isSpace).reverse
  compare left right := upName left == upName right
  compare_self text := by simp
  format message arguments := message ++ arguments.flatten
  fromStringInt := parseInt
  toStringInt := printInt
  fromStringBool text := some (text == "1".toList)
  fromStringPtr := parseNat
  toStringPtr number := printInt number
  conversionMessage text := text
  urlEncode text := text
  urlDecode text := text
  Double := Int
  fromStringDouble := parseInt
  toStringDouble := printInt
  add := (· + ·)
  sub := (· - ·)
  mul := (· * ·)
  div := Int.tdiv
  fmod := Int.tmod
  pow base exponent := Int.pow base exponent.toNat
  negate number := -number
  lt left right := decide (left < right)
  le left right := decide (left ≤ right)
  eq left right := decide (left = right)

/-- The tokens of a text are parts of it. -/
theorem Dcl.plain_tokens_infix (params token : Str)
    (member : token ∈ Dcl.plain.tokens params) : token <:+: params := by
  obtain ⟨first, rest, cut, start, pieces⟩ :=
    splitOnP_infix (fun c => ",".toList.contains c) params
  have listed : token ∈ first :: rest := by
    have cutAll : token ∈ cutAll params ",".toList := member
    unfold DbPager.cutAll at cutAll
    split at cutAll
    · cases cutAll
    · rw [← cut]
      exact cutAll
  rcases List.mem_cons.mp listed with rfl | later
  · exact start.isInfix
  · exact pieces token later

/-- An operation that fails because nothing can be reached. -/
def unreachable {W : Type} (α : Type) : Io W α :=
  fun world => (world, .error (.dbp "unreachable".toList))

/-- A world of which nothing can be reached. -/
def Outside.closed (W : Type) : Outside W where
  dcl := .plain
  json :=
    { parse := fun _ => none
      write := fun _ => []
      ofInteger := fun text => some (.scalar text text)
      ofNumber := fun text => some (.scalar text text)
      ofBoolean := fun holds =>
        if holds then .scalar "true".toList "true".toList
        else .scalar "false".toList "false".toList
      ofString := fun text => .scalar text text }
  regexp :=
    { globalReplace := fun _ _ _ => none
      findAndConsume := fun _ _ => none }
  functions :=
    { encodeBase64 := id
      decodeBase64 := id
      md5 := id
      sha256 := id
      crypt := fun key _ => key
      toUpper := Char.toUpper
      toLower := Char.toLower
      date := fun text _ _ => .ok text
      dateAsGmt := fun text => .ok text
      translate := fun _ _ text => text
      uuid := unreachable _
      rand := unreachable _
      time := unreachable _
      getenv := fun _ => unreachable _ }
  system :=
    { readFile := fun _ => unreachable _
      writeFile := fun _ _ => unreachable _
      remove := fun _ => unreachable _
      rename := fun _ _ => unreachable _
      process := fun _ _ _ => unreachable _
      log := fun _ _ => unreachable _
      registerCatalogAt := fun _ _ => unreachable _
      curlInit := unreachable _
      curlPerform := fun _ => unreachable _ }
  pgsql :=
    { acquire := fun _ => unreachable _
      connection := fun _ => unreachable _
      connect := fun _ _ => unreachable _
      reset := fun _ => id
      work := fun _ => unreachable _
      commit := fun _ => unreachable _
      abort := fun _ => id
      prepare := fun _ _ _ => unreachable _
      exec := fun _ _ => unreachable _ }
  sqlite :=
    { acquire := fun _ => unreachable _
      isOpen := fun _ => unreachable _
      openDatabase := fun _ _ => unreachable _
      getPtr := fun _ => unreachable _
      prepare := fun _ _ => unreachable _
      parameterNames := fun _ => unreachable _
      bind := fun _ _ _ => unreachable _
      step := fun _ => unreachable _
      changes := fun _ => unreachable _
      reset := fun _ => id
      finalize := fun _ => id
      exec := fun _ _ => unreachable _
      errstr := fun _ => [] }
  odbc :=
    { acquire := fun _ => unreachable _
      isOpen := fun _ => unreachable _
      openConnection := fun _ _ _ _ => unreachable _
      close := fun _ => unreachable _
      beginTransaction := fun _ => unreachable _
      commit := fun _ => unreachable _
      rollback := fun _ => unreachable _
      prepare := fun _ _ => unreachable _
      execute := fun _ _ => unreachable _
      next := fun _ => unreachable _ }
  redis :=
    { server := []
      password := []
      databaseNumber := 0
      acquire := fun _ => unreachable _
      isConfigured := fun _ => unreachable _
      configure := fun _ _ => unreachable _
      login := fun _ _ => unreachable _
      selectDatabase := fun _ _ => unreachable _
      reset := fun _ => id
      command := fun _ _ => unreachable _ }
  bdb :=
    { openStorage := fun _ => unreachable _
      get := fun _ _ => unreachable _
      set := fun _ _ _ => unreachable _
      del := fun _ _ => unreachable _
      find := fun _ _ => unreachable _
      next := fun _ => unreachable _ }
  mongo :=
    { connect := fun _ => unreachable _
      builder := unreachable _
      append := fun _ _ _ => unreachable _
      insert := fun _ _ _ => unreachable _
      remove := fun _ _ _ => unreachable _
      query := fun _ _ _ => unreachable _ }
  ldap :=
    { connect := fun _ => unreachable _
      saslBind := fun _ _ _ world => (world, some [])
      search := fun _ _ _ => unreachable _ }
  mqtt :=
    { host := []
      port := []
      user := []
      password := []
      connection := fun world => (world, 0)
      authenticate := fun _ _ _ => unreachable _
      connect := fun _ _ _ => unreachable _
      disconnect := fun _ => id
      publish := fun _ _ _ _ _ => unreachable _
      subscribe := fun _ _ _ => unreachable _ }
  xslt :=
    { parseStylesheet := fun _ => unreachable _
      parseXml := fun _ => unreachable _
      ofJson := fun _ => unreachable _
      apply := fun _ _ _ => unreachable _
      compile := fun _ => unreachable _ }
  vectorMoves _ _ := true
  mapMoves _ _ := true
  mapPosition _ _ := 0
  mapOrder entries := entries
  mapOrder_perm _ := .refl _
  leftFirst := true
  rawToken := .end
  schedule := List.range
  schedule_perm _ := .refl _

/-- A world without files, processes and servers. -/
def Outside.plain : Outside Unit :=
  .closed Unit

/-- A script about to start in a local context of its own. -/
def St.fresh (contexts : List Context) : St Unit :=
  { contexts, vectors := ∅, maps := ∅, nextAddr := 1, world := (), trace := [] }

end DbPager
