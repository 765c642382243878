import DbPager.Session.Jwt

/-!
# How long a token lives

The settings promise that every request starts the time to live anew.  A new
token is only issued when the variables have changed, and they are compared
with whatever token the client has sent.
-/

namespace DbPager

namespace Session

namespace Jwt

/-- The token a client has after a response: the one in the cookie that was
set, or else the one it had. -/
def heldToken (old : Str) (cookies : List Cookie) : Str :=
  (cookies.getLast?.map Cookie.value).getD old

/-- The token expires at the given time. -/
def ExpiresAt (api : Api) (token : Str) (time : Int) : Prop :=
  ∃ payload, api.decode token = some payload ∧
    payload.expiresAt = some time

/-- After the request the client holds a token that is valid now, carries
exactly the prefixed variables, and lives for the whole time to live. -/
def Renewed (api : Api) (now : Int) (holder : HolderJwt) (vars : Vars) :
    Prop :=
  ∃ after cookies,
    holder.save api now (Context.ofUser vars) = .ok (after, cookies) ∧
    Restores api now holder.settings (heldToken holder.id cookies) vars ∧
    ExpiresAt api (heldToken holder.id cookies) (now + holder.settings.ttl)

/-- A session with one variable. -/
def userVars : Vars :=
  single "TOKEN_USER".toList "ann".toList

theorem mem_userVars {name : Str} (member : name ∈ userVars) :
    name = "TOKEN_USER".toList := by
  rw [AList.mem_keys, userVars, single, AList.keys_singleton,
    List.mem_singleton] at member
  exact member

theorem userVars_underscored : Underscored tokenSettings.stem userVars := by
  intro name member _
  rw [mem_userVars member]
  decide

theorem userVars_upper : ∀ name ∈ userVars, upName name = name := by
  intro name member
  rw [mem_userVars member]
  decide

/-- The token of a request at time 0. -/
noncomputable def firstToken : Str :=
  Api.numbered.sign tokenSettings.secret (tokenSettings.payload 0
    (setClaims ∅ (claimsOf tokenSettings.stem userVars.entries)))

theorem firstToken_ne_nil : firstToken ≠ [] := by
  unfold firstToken Api.numbered
  simp

theorem decode_firstToken : Api.numbered.decode firstToken =
    some (tokenSettings.payload 0
      (setClaims ∅ (claimsOf tokenSettings.stem userVars.entries))) :=
  Api.numbered_inverse.decode_sign _ _
    (Written.empty.setClaims _ _).text

end Jwt

end Session

end DbPager
