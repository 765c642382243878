import DbPager.Session.Format
import Mathlib

/-!
# The JWT session holder

The variables of a session whose names start with a configured prefix travel
as claims of a signed token.  A name loses its prefix and the underscore after
it on the way into the token and gets them back on the way out.
-/

namespace DbPager

/-- `asString`; arrays and objects do not convert. -/
def Json.asString : Json → Option Str
  | .null => some []
  | .scalar text _ => some text
  | .array _ | .object _ => none

/-- `transform(..., ::tolower)`. -/
def lowName (name : Str) : Str :=
  name.map Char.toLower

namespace Session

namespace Jwt

/-- A payload: the registered claims this holder knows, and all others.
Times are in seconds. -/
structure Payload where
  issuedAt : Option Int
  notBefore : Option Int
  expiresAt : Option Int
  issuer : Option Str
  claims : AList fun _ : Str => Json

/-- A member of the payload as a JSON object. -/
def Payload.member (payload : Payload) (key : Str) : Option Json :=
  let number (time : Int) : Json :=
    .scalar (toString time).toList (toString time).toList
  if key = "iat".toList then payload.issuedAt.map number
  else if key = "nbf".toList then payload.notBefore.map number
  else if key = "exp".toList then payload.expiresAt.map number
  else if key = "iss".toList then payload.issuer.map fun text => .scalar text text
  else payload.claims.lookup key

/-- What a verifier is told: the secret of HS256, the leeway in seconds, and
the issuer if tokens have to have one. -/
structure Verifier where
  secret : Str
  leeway : Int
  issuer : Option Str

/-- jwt-cpp, with jsoncpp for the payload. -/
structure Api where
  /-- `jwt::decode`; it raises on a text that is no token. -/
  decode : Str → Option Payload
  /-- The text of this exception. -/
  malformed : Str → Str
  /-- `verifier.verify` at a time: the text of the exception, if there is
  one. -/
  verify : Verifier → Int → Str → Option Str
  sign : Str → Payload → Str
  /-- The text of the exception of `asString`. -/
  inconvertible : Str

/-- All claims of the payload are strings. -/
def Payload.Texts (payload : Payload) : Prop :=
  ∀ key value, payload.claims.lookup key = some value →
    ∃ text, value = .scalar text text

/-- The times and the issuer of the payload are what a verifier asks for. -/
structure Payload.Meets (payload : Payload) (verifier : Verifier)
    (now : Int) : Prop where
  issuedAt : ∀ time ∈ payload.issuedAt, time ≤ now + verifier.leeway
  notBefore : ∀ time ∈ payload.notBefore, time ≤ now + verifier.leeway
  expiresAt : ∀ time ∈ payload.expiresAt, now ≤ time + verifier.leeway
  issuer : ∀ name ∈ verifier.issuer, payload.issuer = some name

/-- Signing, verification and the encoding of string claims are inverse to
each other. -/
structure Api.Inverse (api : Api) : Prop where
  decode_sign : ∀ secret payload, payload.Texts →
    api.decode (api.sign secret payload) = some payload
  verify_sign : ∀ (verifier : Verifier) (payload : Payload) (now : Int),
    payload.Texts → payload.Meets verifier now →
    api.verify verifier now (api.sign verifier.secret payload) = none
  decode_nil : api.decode [] = none

/-- The settings of the module. -/
structure Settings where
  ttl : Int
  secret : Str
  namePrefix : Str
  issuer : Str

/-- `mod_session_jwt`. -/
structure HolderJwt extends Holder where
  settings : Settings

namespace HolderJwt

def new (settings : Settings) (isHttps : Bool) : HolderJwt :=
  { id := [], isNew := true, isHttps, settings }

/-- `mod_session_jwt_factory::create_session`. -/
def create (settings : Settings) (isHttps : Bool) :
    List (Str × Str) → HolderJwt
  | [] => new settings isHttps
  | cookie :: cookies =>
      if cookie.1 = "session-token".toList then
        { id := cookie.2, isNew := false, isHttps, settings }
      else create settings isHttps cookies

def cookie (holder : HolderJwt) (value : Str)
    (expires : Option (Nat × Nat × Nat)) : Cookie :=
  { holder.toHolder.cookie value expires with name := "session-token".toList }

end HolderJwt

/-- The verifier of `load`. -/
def Settings.verifier (settings : Settings) : Verifier :=
  { secret := settings.secret
    leeway := 60
    issuer := if settings.issuer.isEmpty then none else some settings.issuer }

def verificationFailed (what : Str) : Exc :=
  .dbp ("JWT verification failed: ".toList ++ what)

def invalidToken (api : Api) (token : Str) : Exc :=
  ⟨.std, api.malformed token, 0⟩

/-- The loop of `load` over the members of the payload. -/
def addClaims (api : Api) (settings : Settings) :
    List (Sigma fun _ : Str => Json) → Context → Context × Option Exc
  | [], user => (user, none)
  | entry :: entries, user =>
      if entry.1.head? = some '_' then
        match entry.2.asString with
        | some text =>
            addClaims api settings entries
              (user.addValue (settings.namePrefix ++ entry.1) text)
        | none => (user, some (verificationFailed api.inconvertible))
      else addClaims api settings entries user

/-- `load`: the context and the exception it raises.  A text that is not a
token raises outside the `try` block. -/
def HolderJwt.load (api : Api) (now : Int) (holder : HolderJwt)
    (user : Context) : Context × Option Exc :=
  if holder.id.isEmpty then (user, none)
  else
    match api.decode holder.id with
    | none => (user, some (invalidToken api holder.id))
    | some payload =>
        match api.verify holder.settings.verifier now holder.id with
        | some what => (user, some (verificationFailed what))
        | none =>
            addClaims api holder.settings payload.claims.entries user

/-- The prefix as it stands in the names of variables. -/
def Settings.stem (settings : Settings) : Str :=
  upName settings.namePrefix

/-- The claim for a variable: the prefix and the character after it are cut
off. -/
def claimName (stem name : Str) : Str :=
  '_' :: lowName (name.drop (stem.length + 1))

/-- The first loop of `save`: `substr` raises for a name that is nothing but
the prefix. -/
def collect (stem : Str) :
    List (Sigma fun _ : Str => Str) → (AList fun _ : Str => Json) →
      Except Exc (AList fun _ : Str => Json)
  | [], claims => .ok claims
  | entry :: entries, claims =>
      if stem.isPrefixOf entry.1 then
        if entry.1.length < stem.length + 1 then
          .error ⟨.std, "basic_string::substr".toList, 0⟩
        else
          collect stem entries
            (claims.insert (claimName stem entry.1) (.scalar entry.2 entry.2))
      else collect stem entries claims

/-- The second loop of `save`: every prefixed variable is a member of the
token the client has sent.  Here only the prefix is cut off. -/
def identical (api : Api) (stem : Str) (current : Payload) :
    List (Sigma fun _ : Str => Str) → Except Exc Bool
  | [] => .ok true
  | entry :: entries =>
      if stem.isPrefixOf entry.1 then
        match current.member (lowName (entry.1.drop stem.length)) with
        | none => .ok false
        | some value =>
            match value.asString with
            | none => .error ⟨.std, api.inconvertible, 0⟩
            | some text =>
                if text = entry.2 then identical api stem current entries
                else .ok false
      else identical api stem current entries

/-- The token under construction. -/
def Settings.payload (settings : Settings) (now : Int)
    (claims : AList fun _ : Str => Json) : Payload :=
  { issuedAt := some now
    notBefore := some now
    expiresAt := if settings.ttl > 0 then some (now + settings.ttl) else none
    issuer := if settings.issuer.isEmpty then none else some settings.issuer
    claims }

namespace HolderJwt

/-- Whether `save` makes a new token. -/
def outdated (api : Api) (holder : HolderJwt)
    (entries : List (Sigma fun _ : Str => Str)) : Except Exc Bool :=
  if holder.id.isEmpty then .ok true
  else
    match api.decode holder.id with
    | none => .error (invalidToken api holder.id)
    | some current =>
        (identical api holder.settings.stem current entries).map (!·)

/-- `save`: the holder afterwards and the cookies of the response. -/
def save (api : Api) (now : Int) (holder : HolderJwt) (user : Context) :
    Except Exc (HolderJwt × List Cookie) :=
  if user.empty then
    if holder.id.isEmpty then .ok (holder, [])
    else
      .ok ({ holder with id := [] },
        [holder.cookie [] (some (1976, 4, 21))])
  else do
    let entries := user.getValues.entries
    let claims ← collect holder.settings.stem entries ∅
    let isNew ← holder.outdated api entries
    if isNew then
      let id := api.sign holder.settings.secret
        (holder.settings.payload now claims)
      pure ({ holder with id, isNew }, [holder.cookie id none])
    else pure ({ holder with isNew }, [])

end HolderJwt

/-! ## Names -/

theorem upName_lowName (name : Str) : upName (lowName name) = upName name := by
  simp [upName, lowName]

theorem lowName_upName (name : Str) : lowName (upName name) = lowName name := by
  simp [upName, lowName]

/-- Names in lower case differ when they differ in upper case. -/
theorem lowName_injective {first second : Str}
    (same : upName (lowName first) = upName (lowName second)) :
    lowName first = lowName second := by
  have lowered := congrArg lowName same
  rw [upName_lowName, upName_lowName, lowName_upName, lowName_upName]
    at lowered
  exact lowered

/-- Whatever stands after the prefix is cut off with it. -/
theorem claimName_cons (stem : Str) (c : Char) (rest : Str) :
    claimName stem (stem ++ c :: rest) = '_' :: lowName rest := by
  have whole : stem ++ c :: rest = stem ++ [c] ++ rest := by simp
  rw [claimName, whole, List.drop_left' (by simp)]

/-! ## From variables to claims -/

/-- The claims of the prefixed variables, in the order of the map. -/
def claimsOf (stem : Str) :
    List (Sigma fun _ : Str => Str) → List (Str × Str)
  | [] => []
  | entry :: entries =>
      if stem.isPrefixOf entry.1 then
        (claimName stem entry.1, entry.2) :: claimsOf stem entries
      else claimsOf stem entries

/-- Set claims one after the other. -/
def setClaims (claims : AList fun _ : Str => Json)
    (bindings : List (Str × Str)) : AList fun _ : Str => Json :=
  bindings.foldl (fun claims binding =>
    claims.insert binding.1 (.scalar binding.2 binding.2)) claims

theorem collect_eq {stem : Str} {entries : List (Sigma fun _ : Str => Str)}
    (longer : ∀ entry ∈ entries, entry.1 ≠ stem)
    (claims : AList fun _ : Str => Json) :
    collect stem entries claims =
      .ok (setClaims claims (claimsOf stem entries)) := by
  induction entries generalizing claims with
  | nil => rfl
  | cons entry entries induction =>
      have later := fun claims => induction
        (fun other member => longer other (List.mem_cons_of_mem _ member))
        claims
      rw [collect, claimsOf]
      by_cases prefixed : stem.isPrefixOf entry.1
      · have start := List.isPrefixOf_iff_prefix.mp prefixed
        have length : ¬ entry.1.length < stem.length + 1 := by
          intro short
          apply longer entry List.mem_cons_self
          exact (start.eq_of_length_le (by omega)).symm
        rw [if_pos prefixed, if_pos prefixed, if_neg length]
        exact later _
      · rw [if_neg prefixed, if_neg prefixed]
        exact later _

/-- A variable that is called like the prefix makes `substr` raise. -/
theorem collect_ne_stem {stem : Str}
    {entries : List (Sigma fun _ : Str => Str)}
    {claims result : AList fun _ : Str => Json}
    (returned : collect stem entries claims = .ok result) :
    ∀ entry ∈ entries, entry.1 ≠ stem := by
  induction entries generalizing claims with
  | nil => simp
  | cons entry entries induction =>
      rw [collect] at returned
      intro other member same
      by_cases prefixed : stem.isPrefixOf entry.1
      · rw [if_pos prefixed] at returned
        by_cases short : entry.1.length < stem.length + 1
        · rw [if_pos short] at returned
          cases returned
        · rw [if_neg short] at returned
          rcases List.mem_cons.mp member with rfl | member
          · rw [same] at short
            omega
          · exact induction returned other member same
      · rw [if_neg prefixed] at returned
        rcases List.mem_cons.mp member with rfl | member
        · apply prefixed
          rw [same]
          exact List.isPrefixOf_iff_prefix.mpr (List.prefix_refl stem)
        · exact induction returned other member same

/-- Every claim of the token is a text whose name starts with an underscore
and is in lower case. -/
structure Written (claims : AList fun _ : Str => Json) : Prop where
  lower : ∀ key ∈ claims, ∃ rest, key = '_' :: lowName rest
  text : ∀ key value, claims.lookup key = some value →
    ∃ text, value = .scalar text text

theorem Written.empty : Written ∅ := by
  constructor
  · intro key member
    exact absurd member (AList.notMem_empty key)
  · intro key value found
    cases found

theorem Written.insert {claims : AList fun _ : Str => Json}
    (written : Written claims) (rest text : Str) :
    Written (claims.insert ('_' :: lowName rest) (.scalar text text)) := by
  constructor
  · intro key member
    rcases (AList.mem_insert claims).mp member with rfl | member
    · exact ⟨rest, rfl⟩
    · exact written.lower key member
  · intro key value found
    by_cases same : key = '_' :: lowName rest
    · subst same
      rw [AList.lookup_insert] at found
      cases found
      exact ⟨text, rfl⟩
    · rw [AList.lookup_insert_ne same] at found
      exact written.text key value found

theorem Written.setClaims {claims : AList fun _ : Str => Json}
    (written : Written claims) (stem : Str)
    (entries : List (Sigma fun _ : Str => Str)) :
    Written (Jwt.setClaims claims (claimsOf stem entries)) := by
  induction entries generalizing claims with
  | nil => exact written
  | cons entry entries induction =>
      rw [claimsOf]
      by_cases prefixed : stem.isPrefixOf entry.1
      · rw [if_pos prefixed]
        exact induction (written.insert _ _)
      · rw [if_neg prefixed]
        exact induction written

/-- The value of a claim is the one set last. -/
theorem lookup_setClaims (stem rest : Str)
    (entries : List (Sigma fun _ : Str => Str))
    (claims : AList fun _ : Str => Json) :
    (setClaims claims (claimsOf stem entries)).lookup ('_' :: lowName rest) =
      ((lastBinding ('_' :: upName rest) (claimsOf stem entries)).map
        fun text => Json.scalar text text).or
          (claims.lookup ('_' :: lowName rest)) := by
  induction entries generalizing claims with
  | nil => rfl
  | cons entry entries induction =>
      rw [claimsOf]
      by_cases prefixed : stem.isPrefixOf entry.1
      · rw [if_pos prefixed]
        have later := induction (claims.insert (claimName stem entry.1)
          (.scalar entry.2 entry.2))
        have first : (claims.insert (claimName stem entry.1)
            (Json.scalar entry.2 entry.2)).lookup ('_' :: lowName rest) =
            ((if upName (claimName stem entry.1) = '_' :: upName rest then
              some entry.2 else none).map fun text => Json.scalar text text).or
                (claims.lookup ('_' :: lowName rest)) := by
          by_cases same : claimName stem entry.1 = '_' :: lowName rest
          · rw [same, AList.lookup_insert, upName_cons, upName_lowName]
            simp
          · rw [AList.lookup_insert_ne (Ne.symm same), if_neg]
            · rfl
            · intro upper
              apply same
              rw [claimName, upName_cons, List.cons.injEq] at upper
              rw [claimName, lowName_injective
                (upper.2.trans (upName_lowName rest).symm)]
        rw [first] at later
        apply later.trans
        rw [lastBinding]
        cases lastBinding ('_' :: upName rest) (claimsOf stem entries) with
        | none => simp
        | some text => simp
      · rw [if_neg prefixed]
        exact induction claims

/-! ## From claims to variables -/

/-- The text of a claim. -/
def claimText (value : Json) : Str :=
  value.asString.getD []

/-- The bindings of the claims of a token. -/
def claimBindings (settings : Settings) (claims : AList fun _ : Str => Json) :
    List (Str × Str) :=
  claims.entries.map fun entry =>
    (settings.namePrefix ++ entry.1, claimText entry.2)

theorem addClaims_eq (api : Api) (settings : Settings)
    {entries : List (Sigma fun _ : Str => Json)}
    (lower : ∀ entry ∈ entries, ∃ rest, entry.1 = '_' :: lowName rest)
    (texts : ∀ entry ∈ entries, ∃ text, entry.2 = .scalar text text)
    (user : Context) :
    addClaims api settings entries user =
      (user.addValues (entries.map fun entry =>
        (settings.namePrefix ++ entry.1, claimText entry.2)), none) := by
  induction entries generalizing user with
  | nil => rfl
  | cons entry entries induction =>
      obtain ⟨key, value⟩ := entry
      obtain ⟨rest, rfl⟩ := lower _ List.mem_cons_self
      obtain ⟨text, rfl⟩ := texts _ List.mem_cons_self
      rw [addClaims]
      apply induction
      · intro other member
        exact lower other (List.mem_cons_of_mem _ member)
      · intro other member
        exact texts other (List.mem_cons_of_mem _ member)

/-- The variable of a claim holds the text of the claim. -/
theorem lastBinding_claims (settings : Settings)
    {entries : List (Sigma fun _ : Str => Json)}
    (nodup : entries.NodupKeys)
    (lower : ∀ entry ∈ entries, ∃ rest, entry.1 = '_' :: lowName rest)
    (rest : Str) :
    lastBinding (settings.stem ++ '_' :: upName rest)
        (entries.map fun entry =>
          (settings.namePrefix ++ entry.1, claimText entry.2)) =
      (entries.dlookup ('_' :: lowName rest)).map claimText := by
  induction entries with
  | nil => rfl
  | cons entry entries induction =>
      obtain ⟨fresh, nodup⟩ := List.nodupKeys_cons.mp nodup
      have later := induction nodup fun other member =>
        lower other (List.mem_cons_of_mem _ member)
      obtain ⟨key, value⟩ := entry
      obtain ⟨own, rfl⟩ := lower _ List.mem_cons_self
      have name : upName (settings.namePrefix ++ '_' :: lowName own) =
          settings.stem ++ '_' :: upName own := by
        rw [upName_append, upName_cons, upName_lowName]
        rfl
      rw [List.map_cons, lastBinding, later, name]
      by_cases same : '_' :: lowName own = '_' :: lowName rest
      · have unlisted : entries.dlookup ('_' :: lowName rest) = none := by
          apply List.dlookup_eq_none.mpr
          rw [← same]
          exact fresh
        have upper : upName own = upName rest := by
          rw [← upName_lowName own, (List.cons.inj same).2, upName_lowName]
        rw [unlisted, upper, same, List.dlookup_cons_eq]
        simp
      · rw [List.dlookup_cons_ne _ _ (Ne.symm same), if_neg]
        · simp
        · intro upper
          apply same
          have tails := (List.cons.inj (List.append_cancel_left upper)).2
          rw [← upName_lowName own, ← upName_lowName rest] at tails
          rw [lowName_injective tails]

/-- Every variable whose name starts with the prefix goes on with an
underscore. -/
def Underscored (stem : Str) (vars : Vars) : Prop :=
  ∀ name ∈ vars, stem <+: name → stem ++ ['_'] <+: name

/-- The variables a session has to keep. -/
def kept (stem : Str) (vars : Vars) (name : Str) : Option Str :=
  if stem ++ ['_'] <+: name then vars.lookup name else none

/-- Loading the token into a fresh user context gives the variables a session
has to keep, and no others. -/
def Restores (api : Api) (now : Int) (settings : Settings) (token : Str)
    (vars : Vars) : Prop :=
  ∃ user, ({ HolderJwt.new settings false with id := token }).load api now
      Context.newUser = (user, none) ∧
    ∀ name, findVar name user.stack = kept settings.stem vars name

/-- The claims of an underscored context, one for each variable. -/
theorem lastBinding_claimsOf {stem rest : Str}
    {entries : List (Sigma fun _ : Str => Str)} (nodup : entries.NodupKeys)
    (underscored : ∀ entry ∈ entries, stem <+: entry.1 →
      stem ++ ['_'] <+: entry.1)
    (upper : ∀ entry ∈ entries, upName entry.1 = entry.1)
    (restUpper : upName rest = rest) :
    lastBinding ('_' :: rest) (claimsOf stem entries) =
      entries.dlookup (stem ++ '_' :: rest) := by
  induction entries with
  | nil => rfl
  | cons entry entries induction =>
      obtain ⟨fresh, nodup⟩ := List.nodupKeys_cons.mp nodup
      have later := induction nodup
        (fun other member =>
          underscored other (List.mem_cons_of_mem _ member))
        (fun other member => upper other (List.mem_cons_of_mem _ member))
      have mine := upper entry List.mem_cons_self
      have start := underscored entry List.mem_cons_self
      obtain ⟨name, value⟩ := entry
      rw [claimsOf]
      by_cases led : stem.isPrefixOf name
      · obtain ⟨tail, rfl⟩ := start (List.isPrefixOf_iff_prefix.mp led)
        rw [if_pos led, lastBinding, later]
        have tailUpper : upName tail = tail := by
          rw [upName_append] at mine
          exact List.append_inj_right mine (by simp [upName])
        have claim : upName (claimName stem (stem ++ ['_'] ++ tail)) =
            '_' :: tail := by
          rw [claimName, List.drop_left' (by simp), upName_cons,
            upName_lowName, tailUpper]
          rfl
        by_cases same : tail = rest
        · subst same
          have unlisted : entries.dlookup (stem ++ '_' :: tail) = none := by
            apply List.dlookup_eq_none.mpr
            simpa using fresh
          rw [unlisted, claim, if_pos rfl]
          simp [List.append_assoc, List.dlookup_cons_eq]
        · rw [claim, if_neg (by simpa using same),
            List.dlookup_cons_ne _ _ (by
              simpa [List.append_assoc] using Ne.symm same)]
          simp
      · rw [if_neg led, later, List.dlookup_cons_ne]
        rintro rfl
        apply led
        exact List.isPrefixOf_iff_prefix.mpr (List.prefix_append _ _)

/-- A token under construction is what the verifier of the same settings asks
for. -/
theorem Settings.payload_meets (settings : Settings) (now : Int)
    (claims : AList fun _ : Str => Json) :
    (settings.payload now claims).Meets settings.verifier now where
  issuedAt := by
    rintro time ⟨⟩
    change now ≤ now + 60
    omega
  notBefore := by
    rintro time ⟨⟩
    change now ≤ now + 60
    omega
  expiresAt := by
    intro time expires
    by_cases limited : settings.ttl > 0
    · rw [Settings.payload, if_pos limited] at expires
      cases expires
      change now ≤ now + settings.ttl + 60
      omega
    · rw [Settings.payload, if_neg limited] at expires
      cases expires
  issuer := fun _ named => named

section Tokens

variable {api : Api} (inverse : api.Inverse)

include inverse

/-- A token that has just been signed is accepted, and its claims become
variables. -/
theorem load_signed (settings : Settings) (now : Int) (isHttps : Bool)
    {claims : AList fun _ : Str => Json} (written : Written claims)
    (user : Context) :
    ({ HolderJwt.new settings isHttps with
        id := api.sign settings.secret (settings.payload now claims) }).load
      api now user =
      (user.addValues (claimBindings settings claims), none) := by
  have texts : (settings.payload now claims).Texts := written.text
  have token : api.sign settings.secret (settings.payload now claims) ≠ [] := by
    intro empty
    have decoded := inverse.decode_sign settings.secret
      (settings.payload now claims) texts
    rw [empty, inverse.decode_nil] at decoded
    cases decoded
  have accepted : api.verify settings.verifier now
      (api.sign settings.secret (settings.payload now claims)) = none :=
    inverse.verify_sign settings.verifier _ now texts
      (settings.payload_meets now claims)
  unfold HolderJwt.load
  rw [if_neg (by simpa using token)]
  simp only [HolderJwt.new, inverse.decode_sign _ _ texts, accepted]
  apply addClaims_eq
  · intro entry member
    exact written.lower entry.1 (AList.mem_keys.mpr
      (List.mem_map_of_mem member))
  · intro entry member
    exact written.text entry.1 entry.2 (AList.mem_lookup_iff.mpr member)

/-- What loading a fresh token of the variables finds. -/
theorem findVar_signed {settings : Settings} {now : Int} {vars : Vars}
    {user : Context} {rest : Str} (restUpper : upName rest = rest)
    (loaded : ({ HolderJwt.new settings false with
        id := api.sign settings.secret (settings.payload now
          (setClaims ∅ (claimsOf settings.stem vars.entries))) }).load
      api now Context.newUser = (user, none)) :
    findVar (settings.stem ++ '_' :: rest) user.stack =
      lastBinding ('_' :: rest) (claimsOf settings.stem vars.entries) := by
  have written := Written.empty.setClaims settings.stem vars.entries
  rw [load_signed inverse settings now false written] at loaded
  cases loaded
  have values := lastBinding_claims settings
    (setClaims ∅ (claimsOf settings.stem vars.entries)).nodupKeys
    (fun entry member => written.lower entry.1 (AList.mem_keys.mpr
      (List.mem_map_of_mem member))) rest
  rw [restUpper] at values
  rw [findVar_newUser, claimBindings, values]
  have claim := lookup_setClaims settings.stem rest vars.entries ∅
  rw [restUpper] at claim
  apply (congrArg (Option.map claimText) claim).trans
  cases lastBinding ('_' :: rest) (claimsOf settings.stem vars.entries) with
  | none => rfl
  | some text => rfl

end Tokens

theorem kept_upper {stem : Str} {vars : Vars}
    (upper : ∀ name ∈ vars, upName name = name) {name value : Str}
    (found : kept stem vars name = some value) : upName name = name := by
  unfold kept at found
  split at found
  · apply upper
    rw [← AList.lookup_isSome, found]
    rfl
  · cases found

/-- The variables of claims have the prefix, an underscore, and the rest of
their names in upper case. -/
theorem mem_claimBindings {settings : Settings}
    {claims : AList fun _ : Str => Json} (written : Written claims)
    {binding : Str × Str} (member : binding ∈ claimBindings settings claims) :
    ∃ rest, upName binding.1 = settings.stem ++ '_' :: upName rest := by
  obtain ⟨entry, listed, rfl⟩ := List.mem_map.mp member
  obtain ⟨rest, name⟩ := written.lower entry.1
    (AList.mem_keys.mpr (List.mem_map_of_mem listed))
  apply Exists.intro rest
  rw [name, upName_append, upName_cons, upName_lowName]
  rfl

theorem upName_stem (settings : Settings) :
    upName settings.stem = settings.stem :=
  upName_idem _

/-- The claims made of the prefixed variables are the variables a session has
to keep, where the last claim of a name stands for all of them. -/
def Faithful (stem : Str) (vars : Vars) : Prop :=
  ∀ rest, upName rest = rest →
    lastBinding ('_' :: rest) (claimsOf stem vars.entries) =
      vars.lookup (stem ++ '_' :: rest)

theorem Underscored.faithful {stem : Str} {vars : Vars}
    (underscored : Underscored stem vars)
    (upper : ∀ name ∈ vars, upName name = name) : Faithful stem vars := by
  intro rest restUpper
  have inVars {entry : Sigma fun _ : Str => Str}
      (member : entry ∈ vars.entries) : entry.1 ∈ vars :=
    AList.mem_keys.mpr (List.mem_map_of_mem member)
  exact lastBinding_claimsOf vars.nodupKeys
    (fun entry member => underscored entry.1 (inVars member))
    (fun entry member => upper entry.1 (inVars member)) restUpper

/-- A fresh token gives back the variables a session has to keep exactly when
the claims say so. -/
theorem restores_signed_iff {api : Api} (inverse : api.Inverse)
    (settings : Settings) (now : Int) {vars : Vars}
    (upper : ∀ name ∈ vars, upName name = name) :
    Restores api now settings
        (api.sign settings.secret (settings.payload now
          (setClaims ∅ (claimsOf settings.stem vars.entries)))) vars ↔
      Faithful settings.stem vars := by
  constructor
  · rintro ⟨user, loaded, values⟩ rest restUpper
    have start : settings.stem ++ ['_'] <+: settings.stem ++ '_' :: rest :=
      ⟨rest, by simp⟩
    rw [← findVar_signed inverse restUpper loaded, values, kept, if_pos start]
  intro faithful
  have written := Written.empty.setClaims settings.stem vars.entries
  have loaded := load_signed inverse settings now false written
    Context.newUser
  refine ⟨_, loaded, ?_⟩
  intro name
  by_cases plain : ∃ rest, name = settings.stem ++ '_' :: rest ∧
      upName rest = rest
  · obtain ⟨rest, rfl, restUpper⟩ := plain
    have start : settings.stem ++ ['_'] <+: settings.stem ++ '_' :: rest :=
      ⟨rest, by simp⟩
    rw [findVar_signed inverse restUpper loaded, kept, if_pos start]
    exact faithful rest restUpper
  · have absent : kept settings.stem vars name = none := by
      cases found : kept settings.stem vars name with
      | none => rfl
      | some value =>
          have whole := kept_upper upper found
          unfold kept at found
          split at found
          · rename_i start
            obtain ⟨rest, rfl⟩ := start
            rw [List.append_assoc] at whole
            simp only [upName_append, upName_stem] at whole
            have tails := List.append_cancel_left whole
            exact absurd ⟨rest, by simp, (List.cons.inj tails).2⟩ plain
          · cases found
    rw [absent, findVar_newUser]
    apply lastBinding_eq_none.mpr
    intro binding member same
    obtain ⟨rest, shape⟩ := mem_claimBindings written member
    exact plain ⟨upName rest, same.symm.trans shape, upName_idem rest⟩

/-! ## A model of the library -/

instance countableChar : Countable Char :=
  Function.Injective.countable (f := fun c : Char => c.val.toNat)
    fun _ _ same => Char.ext (UInt32.toNat_inj.mp same)

/-- Everything a payload with string claims holds. -/
def Payload.fields (payload : Payload) :
    Option Int × Option Int × Option Int × Option Str × List (Str × Str) :=
  (payload.issuedAt, payload.notBefore, payload.expiresAt, payload.issuer,
    payload.claims.entries.map fun entry => (entry.1, claimText entry.2))

theorem Payload.fields_injective {first second : Payload}
    (firstTexts : first.Texts) (secondTexts : second.Texts)
    (same : first.fields = second.fields) : first = second := by
  have back (payload : Payload) (texts : payload.Texts) :
      payload.claims.entries = payload.fields.2.2.2.2.map fun binding =>
        ⟨binding.1, .scalar binding.2 binding.2⟩ := by
    have restored : ∀ entry ∈ payload.claims.entries,
        (⟨entry.1, .scalar (claimText entry.2) (claimText entry.2)⟩ :
          Sigma fun _ : Str => Json) = entry := by
      intro entry member
      obtain ⟨text, value⟩ := texts entry.1 entry.2
        (AList.mem_lookup_iff.mpr member)
      obtain ⟨key, json⟩ := entry
      simp only at value
      subst value
      rfl
    rw [Payload.fields, List.map_map]
    exact ((List.map_congr_left restored).trans (List.map_id _)).symm
  have claims : first.claims = second.claims := by
    apply AList.ext
    rw [back first firstTexts, back second secondTexts, same]
  obtain ⟨_, _, _, _, _⟩ := first
  obtain ⟨_, _, _, _, _⟩ := second
  simp only [Payload.fields, Prod.mk.injEq] at same
  simp only at claims
  simp [same, claims]

/-- Secrets and payloads can be numbered. -/
noncomputable def tokenNumber :=
  (exists_injective_nat (Str × Option Int × Option Int × Option Int ×
    Option Str × List (Str × Str))).choose

theorem tokenNumber_injective : Function.Injective tokenNumber :=
  (exists_injective_nat _).choose_spec

open Classical in
/-- A library whose tokens are the numbers of what they hold. -/
noncomputable def Api.numbered : Api where
  sign secret payload :=
    List.replicate (tokenNumber (secret, payload.fields) + 1) 'a'
  decode token :=
    if made : ∃ payload : Payload, payload.Texts ∧ ∃ secret,
        token = List.replicate (tokenNumber (secret, payload.fields) + 1) 'a'
    then some made.choose else none
  verify verifier now token :=
    if ∃ payload : Payload, payload.Texts ∧ payload.Meets verifier now ∧
        token = List.replicate
          (tokenNumber (verifier.secret, payload.fields) + 1) 'a'
    then none else some []
  malformed _ := []
  inconvertible := []

theorem Api.numbered_inverse : Api.numbered.Inverse := by
  constructor
  · intro secret payload texts
    have made : ∃ other : Payload, other.Texts ∧ ∃ key,
        Api.numbered.sign secret payload =
          List.replicate (tokenNumber (key, other.fields) + 1) 'a' :=
      ⟨payload, texts, secret, rfl⟩
    obtain ⟨chosenTexts, key, same⟩ := made.choose_spec
    have fields : (secret, payload.fields) = (key, made.choose.fields) := by
      apply tokenNumber_injective
      have length := congrArg List.length same
      simpa [Api.numbered] using length
    have whole := Payload.fields_injective texts chosenTexts
      (Prod.mk.inj fields).2
    have decoded : Api.numbered.decode (Api.numbered.sign secret payload) =
        some made.choose := dif_pos made
    rw [decoded, ← whole]
  · intro verifier payload now texts meets
    exact if_pos ⟨payload, texts, meets, rfl⟩
  · apply dif_neg
    rintro ⟨payload, texts, secret, empty⟩
    cases empty

/-- The settings of the examples. -/
def tokenSettings : Settings :=
  { ttl := 100, secret := "secret".toList, namePrefix := "token".toList
    issuer := [] }

/-! ## Saving -/

/-- The payload has a member for the variable, with its value. -/
def Payload.Holds (payload : Payload) (stem name value : Str) : Prop :=
  ∃ member, payload.member (lowName (name.drop stem.length)) = some member ∧
    member.asString = some value

/-- Of the variables that are compared, up to the first one that the payload
lacks or has with another value, none meets an array or an object. -/
def Payload.Comparable (payload : Payload) (stem : Str)
    (entries : List (Sigma fun _ : Str => Str)) : Prop :=
  ∀ before entry after, entries = before ++ entry :: after →
    (∀ other ∈ before, stem <+: other.1 →
      payload.Holds stem other.1 other.2) →
    stem <+: entry.1 →
    ∀ member, payload.member (lowName (entry.1.drop stem.length)) =
      some member → member.asString ≠ none

/-- The client sends no token, or one that can be decoded and compared with
the variables. -/
def Comparable (api : Api) (holder : HolderJwt) (vars : Vars) : Prop :=
  holder.id = [] ∨ ∃ payload, api.decode holder.id = some payload ∧
    payload.Comparable holder.settings.stem vars.entries

/-- The token already has every prefixed variable with its value. -/
def Carries (api : Api) (stem token : Str) (vars : Vars) : Prop :=
  ∃ payload, api.decode token = some payload ∧
    ∀ name value, vars.lookup name = some value → stem <+: name →
      payload.Holds stem name value

section Comparing

variable {api : Api} {stem : Str} {current : Payload}

theorem Payload.comparable_nil : current.Comparable stem [] := by
  intro before entry after cut
  cases before <;> cases cut

/-- Behind a variable that agrees the comparison goes on. -/
theorem Payload.comparable_cons {entry : Sigma fun _ : Str => Str}
    {entries : List (Sigma fun _ : Str => Str)}
    (agrees : stem <+: entry.1 → current.Holds stem entry.1 entry.2) :
    current.Comparable stem (entry :: entries) ↔
      current.Comparable stem entries := by
  constructor
  · intro comparable before other after cut held
    apply comparable (entry :: before) other after (by rw [cut]; rfl)
    exact List.forall_mem_cons.mpr ⟨agrees, held⟩
  · intro comparable before other after cut held led member found
    cases before with
    | nil =>
        cases cut
        obtain ⟨value, same, text⟩ := agrees led
        rw [found] at same
        cases same
        rw [text]
        exact Option.some_ne_none _
    | cons first before =>
        cases cut
        exact comparable before other after rfl
          (List.forall_mem_cons.mp held).2 led member found

/-- At a variable that does not agree the comparison is over. -/
theorem Payload.comparable_stop {entry : Sigma fun _ : Str => Str}
    {entries : List (Sigma fun _ : Str => Str)} (led : stem <+: entry.1)
    (differs : ¬ current.Holds stem entry.1 entry.2) :
    current.Comparable stem (entry :: entries) ↔
      ∀ member, current.member (lowName (entry.1.drop stem.length)) =
        some member → member.asString ≠ none := by
  constructor
  · intro comparable
    exact comparable [] entry entries rfl (by simp) led
  · intro converts before other after cut held _ member found
    cases before with
    | nil =>
        cases cut
        exact converts member found
    | cons first before =>
        cases cut
        exact absurd ((List.forall_mem_cons.mp held).1 led) differs

/-- The second loop of `save`: it returns exactly when nothing in its way is
an array or an object, and tells whether every prefixed variable agrees. -/
theorem identical_spec (api : Api) (stem : Str) (current : Payload)
    (entries : List (Sigma fun _ : Str => Str)) :
    ((∃ same, identical api stem current entries = .ok same) ↔
      current.Comparable stem entries) ∧
    (identical api stem current entries = .ok true ↔
      ∀ entry ∈ entries, stem <+: entry.1 →
        current.Holds stem entry.1 entry.2) := by
  induction entries with
  | nil => exact ⟨by simp [identical, Payload.comparable_nil], by simp [identical]⟩
  | cons entry entries induction =>
      rw [identical, List.forall_mem_cons]
      by_cases led : stem.isPrefixOf entry.1
      · have start := List.isPrefixOf_iff_prefix.mp led
        rw [if_pos led]
        by_cases agrees : current.Holds stem entry.1 entry.2
        · rw [Payload.comparable_cons fun _ => agrees]
          obtain ⟨value, found, text⟩ := agrees
          simp only [found, text, if_true]
          exact ⟨induction.1, by
            rw [induction.2]
            exact (and_iff_right fun _ => ⟨value, found, text⟩).symm⟩
        · rw [Payload.comparable_stop start agrees]
          cases found : current.member
              (lowName (entry.1.drop stem.length)) with
          | none => simp [start, agrees]
          | some value =>
              cases converted : value.asString with
              | none => simp [converted, start, agrees]
              | some text =>
                  have other : text ≠ entry.2 := fun same =>
                    agrees ⟨value, found, same ▸ converted⟩
                  simp [converted, start, agrees, other]
      · have apart : ¬ stem <+: entry.1 := fun start =>
          led (List.isPrefixOf_iff_prefix.mpr start)
        rw [if_neg led, Payload.comparable_cons fun start =>
          absurd start apart]
        exact ⟨induction.1, by rw [induction.2]; simp [apart]⟩

end Comparing

/-- Whether a new token is made can be told exactly when the token can be
compared, and none is made exactly when it carries the variables. -/
theorem outdated_spec {api : Api} (inverse : api.Inverse) (holder : HolderJwt)
    (vars : Vars) :
    ((∃ isNew, holder.outdated api vars.entries = .ok isNew) ↔
      Comparable api holder vars) ∧
    (holder.outdated api vars.entries = .ok false ↔
      Carries api holder.settings.stem holder.id vars) := by
  unfold HolderJwt.outdated Comparable Carries
  by_cases fresh : holder.id = []
  · rw [fresh]
    simp [inverse.decode_nil]
  · rw [if_neg (by simpa using fresh)]
    cases decoded : api.decode holder.id with
    | none => simp [fresh]
    | some current =>
        obtain ⟨returns, agrees⟩ := identical_spec api holder.settings.stem
          current vars.entries
        have members : (∀ entry ∈ vars.entries,
            holder.settings.stem <+: entry.1 →
              current.Holds holder.settings.stem entry.1 entry.2) ↔
            ∀ name value, vars.lookup name = some value →
              holder.settings.stem <+: name →
                current.Holds holder.settings.stem name value :=
          ⟨fun all name value found =>
              all ⟨name, value⟩ (AList.mem_lookup_iff.mp found),
            fun all entry listed =>
              all entry.1 entry.2 (AList.mem_lookup_iff.mpr listed)⟩
        rw [members] at agrees
        simp only [Option.some.injEq, exists_eq_left', fresh, false_or]
        rw [← returns, ← agrees]
        cases identical api holder.settings.stem current vars.entries with
        | error exception => simp [Except.map]
        | ok same => cases same <;> simp [Except.map]

theorem ofUser_empty (vars : Vars) :
    (Context.ofUser vars).empty = vars.entries.isEmpty := rfl

/-- `save` for a context that is not empty. -/
theorem save_eq {api : Api} {now : Int} {holder : HolderJwt} {vars : Vars}
    (filled : vars.entries ≠ []) (longer : holder.settings.stem ∉ vars) :
    holder.save api now (Context.ofUser vars) =
      (holder.outdated api vars.entries).map fun isNew =>
        let id := api.sign holder.settings.secret
          (holder.settings.payload now
            (setClaims ∅ (claimsOf holder.settings.stem vars.entries)))
        if isNew then
          ({ holder with id, isNew }, [holder.cookie id none])
        else ({ holder with isNew }, []) := by
  have started : (Context.ofUser vars).empty = false := by
    rw [ofUser_empty]
    simpa using filled
  have names : ∀ entry ∈ vars.entries, entry.1 ≠ holder.settings.stem :=
    fun entry listed same =>
      longer (same ▸ AList.mem_keys.mpr (List.mem_map_of_mem listed))
  unfold HolderJwt.save
  rw [started, getValues_ofUser]
  simp only [Bool.false_eq_true, if_false, collect_eq names, bind,
    Except.bind]
  cases holder.outdated api vars.entries with
  | error exception => rfl
  | ok isNew => cases isNew <;> rfl

/-- An empty context issues no token. -/
theorem save_blank (api : Api) (now : Int) (holder : HolderJwt) {vars : Vars}
    (blank : vars.entries = []) :
    ∃ after cookies,
      holder.save api now (Context.ofUser vars) = .ok (after, cookies) ∧
      ∀ cookie ∈ cookies, cookie.expires ≠ none := by
  have started : (Context.ofUser vars).empty = true := by
    rw [ofUser_empty, blank]
    rfl
  unfold HolderJwt.save
  rw [if_pos started]
  by_cases fresh : holder.id.isEmpty
  · rw [if_pos fresh]
    exact ⟨_, _, rfl, by simp⟩
  · rw [if_neg fresh]
    apply Exists.intro { holder with id := [] }
    apply Exists.intro [holder.cookie [] (some (1976, 4, 21))]
    constructor
    · rfl
    · have dated : (holder.cookie [] (some (1976, 4, 21))).expires =
          some (1976, 4, 21) := rfl
      simp [dated]

theorem mem_claimsOf {stem : Str}
    {entries : List (Sigma fun _ : Str => Str)}
    {entry : Sigma fun _ : Str => Str} (member : entry ∈ entries)
    (led : stem <+: entry.1) :
    (claimName stem entry.1, entry.2) ∈ claimsOf stem entries := by
  induction entries with
  | nil => cases member
  | cons first entries induction =>
      rw [claimsOf]
      rcases List.mem_cons.mp member with rfl | member
      · rw [if_pos (List.isPrefixOf_iff_prefix.mpr led)]
        exact List.mem_cons_self
      · by_cases other : stem.isPrefixOf first.1
        · rw [if_pos other]
          exact List.mem_cons_of_mem _ (induction member)
        · rw [if_neg other]
          exact induction member

theorem save_ne_stem {api : Api} {now : Int} {holder : HolderJwt}
    {vars : Vars} (filled : vars.entries ≠ [])
    {result : HolderJwt × List Cookie}
    (saved : holder.save api now (Context.ofUser vars) = .ok result) :
    holder.settings.stem ∉ vars := by
  have started : (Context.ofUser vars).empty = false := by
    rw [ofUser_empty]
    simpa using filled
  unfold HolderJwt.save at saved
  rw [started, getValues_ofUser] at saved
  simp only [Bool.false_eq_true, if_false, bind, Except.bind] at saved
  cases collected : collect holder.settings.stem vars.entries ∅ with
  | error exception =>
      rw [collected] at saved
      cases saved
  | ok claims =>
      intro member
      obtain ⟨entry, listed, same⟩ := List.mem_map.mp (AList.mem_keys.mp member)
      exact collect_ne_stem collected entry listed same

/-- No two prefixed variables share a claim. -/
def Apart (stem : Str) (vars : Vars) : Prop :=
  ∀ first second, first ∈ vars → second ∈ vars →
    stem <+: first → stem <+: second →
    claimName stem first = claimName stem second → first = second

/-- Saving does not fail, and a token that is issued gives back the prefixed
variables, each from a claim of its own. -/
def RoundTrip (api : Api) (now : Int) (holder : HolderJwt) (vars : Vars) :
    Prop :=
  ∃ after cookies,
    holder.save api now (Context.ofUser vars) = .ok (after, cookies) ∧
    ∀ cookie ∈ cookies, cookie.expires = none →
      Restores api now holder.settings cookie.value vars ∧
        Apart holder.settings.stem vars

theorem Underscored.ne_stem {stem : Str} {vars : Vars}
    (underscored : Underscored stem vars) : stem ∉ vars := by
  intro member
  have length := (underscored stem member (List.prefix_refl _)).length_le
  rw [List.length_append, List.length_singleton] at length
  omega

/-- Variables of an underscored context have claims of their own. -/
theorem Underscored.apart {settings : Settings} {vars : Vars}
    (underscored : Underscored settings.stem vars)
    (upper : ∀ name ∈ vars, upName name = name) :
    Apart settings.stem vars := by
  intro first second firstIn secondIn firstLed secondLed same
  have firstUpper := upper first firstIn
  have secondUpper := upper second secondIn
  obtain ⟨left, rfl⟩ := underscored first firstIn firstLed
  obtain ⟨right, rfl⟩ := underscored second secondIn secondLed
  rw [claimName, claimName, List.drop_left' (by simp),
    List.drop_left' (by simp)] at same
  have tails : upName left = upName right := by
    rw [← upName_lowName left, (List.cons.inj same).2, upName_lowName]
  rw [← firstUpper, ← secondUpper, upName_append, tails, ← upName_append]

/-- Claims that say what the variables say, each of one variable alone, are
made of variables whose names go on with an underscore: a name that goes on
otherwise has the claim of another variable, or of none. -/
theorem Faithful.underscored {settings : Settings} {vars : Vars}
    (faithful : Faithful settings.stem vars) (apart : Apart settings.stem vars)
    (upper : ∀ name ∈ vars, upName name = name)
    (longer : settings.stem ∉ vars) : Underscored settings.stem vars := by
  intro name member led
  obtain ⟨value, bound⟩ :=
    Option.isSome_iff_exists.mp (AList.lookup_isSome.mpr member)
  have listed : (⟨name, value⟩ : Sigma fun _ : Str => Str) ∈ vars.entries :=
    AList.mem_lookup_iff.mp bound
  have whole := upper name member
  obtain ⟨tail, rfl⟩ := led
  cases tail with
  | nil => exact absurd (List.append_nil settings.stem ▸ member) longer
  | cons c rest =>
      have restUpper : upName rest = rest := by
        rw [upName_append, upName_stem] at whole
        exact (List.cons.inj (List.append_cancel_left whole)).2
      have claim : claimName settings.stem (settings.stem ++ c :: rest) =
          claimName settings.stem (settings.stem ++ '_' :: rest) := by
        rw [claimName_cons, claimName_cons]
      have sibling : settings.stem ++ '_' :: rest ∈ vars := by
        rw [← AList.lookup_isSome, ← faithful rest restUpper]
        cases last : lastBinding ('_' :: rest)
            (claimsOf settings.stem vars.entries) with
        | some text => rfl
        | none =>
            have other := lastBinding_eq_none.mp last _
              (mem_claimsOf listed (List.prefix_append _ _))
            apply absurd _ other
            rw [claimName_cons, upName_cons, upName_lowName, restUpper]
            rfl
      have same := apart _ _ member sibling (List.prefix_append _ _)
        (List.prefix_append _ _) claim
      have underscore := (List.cons.inj (List.append_cancel_left same)).1
      subst underscore
      exact ⟨rest, by simp⟩

end Jwt

end Session

end DbPager
