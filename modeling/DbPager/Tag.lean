import DbPager.Text

/-!
# The tag tree

A parsed script is a tree of tags.  A tag keeps its class, its parameters,
its children and its text; every parameter is a `tag_expression`, so only
its text is kept.  The parameters are listed in the order in which the hash
map that holds them is iterated.

Parent pointers become the list of ancestors: a `Loc` is a tag together with
the tags above it, nearest first.  The field `addr` stands for the object's
address, so that two tags with the same content can be told apart.
-/

namespace DbPager

/-- A name written in an XML document.  XML does not allow it to start
with `@`. -/
structure XmlName where
  text : Str
  plain : text.head? ≠ some '@'

theorem head_ne_at {c : Char} {text : Str} (other : c ≠ '@') :
    (c :: text).head? ≠ some '@' := by
  intro same
  exact other (Option.some.inj same)

/-- The functions registered in `tag_factory` for use in expressions. -/
inductive Builtin where
  | iif | byte | trim | length | concatenate | pos
  | encodeBase64 | decodeBase64 | md5 | sha256 | crypt | uuid | rnd
  | upper | lower | urlencode | urldecode
  | dateUtc | dateFrom | dateFmt | now | env | translate
  deriving DecidableEq, Repr

namespace Builtin

/-- The name an expression uses for the function. -/
def name : Builtin → Str
  | iif => "iif".toList
  | byte => "byte".toList
  | trim => "trim".toList
  | length => "len".toList
  | concatenate => "concat".toList
  | pos => "pos".toList
  | encodeBase64 => "encode_base64".toList
  | decodeBase64 => "decode_base64".toList
  | md5 => "md5".toList
  | sha256 => "sha256".toList
  | crypt => "crypt".toList
  | uuid => "uuid".toList
  | rnd => "rnd".toList
  | upper => "upper".toList
  | lower => "lower".toList
  | urlencode => "encode_url".toList
  | urldecode => "decode_url".toList
  | dateUtc => "date_utc".toList
  | dateFrom => "date_from".toList
  | dateFmt => "date_fmt".toList
  | now => "now".toList
  | env => "env".toList
  | translate => "_".toList

def all : List Builtin :=
  [iif, byte, trim, length, concatenate, pos, encodeBase64, decodeBase64,
    md5, sha256, crypt, uuid, rnd, upper, lower, urlencode, urldecode,
    dateUtc, dateFrom, dateFmt, now, env, translate]

/-- The function registered under a name. -/
def ofName (name : Str) : Option Builtin :=
  all.find? fun builtin => builtin.name == name

end Builtin

/-- The class of a tag. -/
inductive Kind where
  | expression
  | cdata
  | unknown (name : XmlName)
  /-- `tag_usr` with the definition `link` found, given by its address. -/
  | usr (name : XmlName) (userTag : Option Nat)
  /-- The `tag_usr` that `execute_function` creates for `@name(...)`. -/
  | userFunction (name : Str)
  | function (builtin : Builtin)
  | module | include
  | var | set
  | map | mapSet | mapUnset | mapElement | mapElements | mapValues
  | mapFromJson | mapToJson
  | list | listAdd | listRemove | listElement | listElements | listFromJson
  | try | catch | throw | case | switch | while
  | split | substr | regexp
  /-- `tag_tag`, with the name its `name` parameter gave it. -/
  | tag (name : Option Str)
  | call | execute
  | read | write | locale | system | delete | rename | log | http | async
  | pgsqlDatabase | pgsqlTransaction | pgsqlQuery
  | sqliteDatabase | sqliteTransaction | sqliteQuery
  | odbcDatabase | odbcTransaction | odbcQuery
  | redisConnection | redisQuery
  | bdbStorage | bdbGet | bdbSet | bdbFind | bdbDelete
  | mongoDatabase | mongoQuery | mongoInsert | mongoUpdate | mongoDelete
  | mongoParam
  | ldapConnection | ldapBind | ldapSearch
  | mqttConnection | mqttPub | mqttSub
  | xsltTransform | xsltTransformJson
  | javascript

namespace Kind

/-- The name a tag of this class answers to. -/
def getName : Kind → Str
  | expression | cdata => []
  | unknown name => name.text
  | usr name _ => name.text
  | userFunction name => name
  | function builtin => '@' :: builtin.name
  | module => "module".toList
  | «include» => "include".toList
  | var => "var".toList
  | set => "set".toList
  | map => "map".toList
  | mapSet => "map-set".toList
  | mapUnset => "map-unset".toList
  | mapElement => "map-element".toList
  | mapElements => "map-elements".toList
  | mapValues => "map-values".toList
  | mapFromJson => "map-from-json".toList
  | mapToJson => "map-to-json".toList
  | list => "list".toList
  | listAdd => "list-add".toList
  | listRemove => "list-remove".toList
  | listElement => "list-element".toList
  | listElements => "list-elements".toList
  | listFromJson => "list-from-json".toList
  | «try» => "try".toList
  | «catch» => "catch".toList
  | throw => "throw".toList
  | case => "case".toList
  | switch => "switch".toList
  | «while» => "while".toList
  | split => "split".toList
  | substr => "substr".toList
  | regexp => "regexp".toList
  | tag none => "tag".toList
  | tag (some name) => '@' :: name
  | call => "call".toList
  | execute => "execute".toList
  | read => "read".toList
  | write => "write".toList
  | locale => "locale".toList
  | system => "system".toList
  | delete | bdbDelete => "delete".toList
  | rename => "rename".toList
  | log => "log".toList
  | http => "http".toList
  | async => "async".toList
  | pgsqlDatabase | sqliteDatabase | odbcDatabase | mongoDatabase =>
      "database".toList
  | pgsqlTransaction | sqliteTransaction | odbcTransaction =>
      "transaction".toList
  | pgsqlQuery | sqliteQuery | odbcQuery | redisQuery | mongoQuery =>
      "query".toList
  | redisConnection | ldapConnection | mqttConnection => "connection".toList
  | bdbStorage => "storage".toList
  | bdbGet => "get".toList
  | bdbSet => "set".toList
  | bdbFind => "find".toList
  | mongoInsert => "insert".toList
  | mongoUpdate => "update".toList
  | mongoDelete => "remove".toList
  | mongoParam => "param".toList
  | ldapBind => "bind".toList
  | ldapSearch => "search".toList
  | mqttPub => "pub".toList
  | mqttSub => "sub".toList
  | xsltTransform => "transform".toList
  | xsltTransformJson => "transform-json".toList
  | javascript => "script".toList

/-- `dynamic_cast<const tag_usr*>` succeeds: `tag_call` derives from
`tag_usr`. -/
def isUsr : Kind → Bool
  | usr _ _ | userFunction _ | call => true
  | _ => false

/-- The class is `tag_tag`. -/
def isTag : Kind → Bool
  | tag _ => true
  | _ => false

end Kind

inductive Tag where
  | mk (addr : Nat) (kind : Kind) (params : List (Str × Str))
      (childs : List Tag) (text : Str)

namespace Tag

def addr : Tag → Nat
  | mk addr _ _ _ _ => addr

def kind : Tag → Kind
  | mk _ kind _ _ _ => kind

def params : Tag → List (Str × Str)
  | mk _ _ params _ _ => params

def childs : Tag → List Tag
  | mk _ _ _ childs _ => childs

def text : Tag → Str
  | mk _ _ _ _ text => text

def getName (tag : Tag) : Str :=
  tag.kind.getName

end Tag

/-- A pointer to a tag: the tag and its ancestors, nearest first. -/
structure Loc where
  tag : Tag
  up : List Tag

namespace Loc

def child (self : Loc) (tag : Tag) : Loc :=
  ⟨tag, self.tag :: self.up⟩

/-- `tag_impl::get_child`: the first child with the given name. -/
def getChild (self : Loc) (name : Str) : Option Loc :=
  (self.tag.childs.find? fun tag => tag.getName == name).map self.child

/-- The value of a parameter's expression, if the parameter is there. -/
def findParam (self : Loc) (name : Str) : Option Str :=
  (self.tag.params.find? fun param => param.1 == name).map Prod.snd

end Loc

/-- The search of `tag_usr::execute` and `tag_call::execute`: the first
ancestor that has a child called `@name` gives the definition. -/
def findTag (name : Str) : List Tag → Option Loc
  | [] => none
  | tag :: up =>
      match Loc.getChild ⟨tag, up⟩ ('@' :: name) with
      | some found => some found
      | none => findTag name up

/-- The tag `link` stored, looked up by its address among the children of
the ancestors. -/
def findAddr (addr : Nat) : List Tag → Option Loc
  | [] => none
  | tag :: up =>
      match tag.childs.find? fun child => child.addr == addr with
      | some found => some (Loc.child ⟨tag, up⟩ found)
      | none => findAddr addr up

/-- A definition is a child of one of the ancestors it was searched in. -/
inductive ChildOfAncestor (found : Loc) : List Tag → Prop where
  | here {tag : Tag} {up : List Tag} :
      found.tag ∈ tag.childs → found.up = tag :: up →
      ChildOfAncestor found (tag :: up)
  | above {tag : Tag} {up : List Tag} :
      ChildOfAncestor found up → ChildOfAncestor found (tag :: up)

theorem Loc.getChild_spec {self found : Loc} {name : Str}
    (result : self.getChild name = some found) :
    found.tag ∈ self.tag.childs ∧ found.up = self.tag :: self.up ∧
      found.tag.getName = name := by
  unfold Loc.getChild at result
  obtain ⟨tag, search, rfl⟩ := Option.map_eq_some_iff.mp result
  have member := List.mem_of_find?_eq_some search
  have named := List.find?_some search
  exact ⟨member, rfl, by simpa [Loc.child] using named⟩

theorem findTag_spec {name : Str} {up : List Tag} {found : Loc}
    (result : findTag name up = some found) :
    ChildOfAncestor found up ∧ found.tag.getName = '@' :: name := by
  induction up with
  | nil => simp [findTag] at result
  | cons tag up induction =>
      unfold findTag at result
      split at result
      · rename_i here search
        cases result
        obtain ⟨member, above, named⟩ := Loc.getChild_spec search
        exact ⟨.here member above, named⟩
      · obtain ⟨child, named⟩ := induction result
        exact ⟨.above child, named⟩

theorem findAddr_spec {addr : Nat} {up : List Tag} {found : Loc}
    (result : findAddr addr up = some found) : ChildOfAncestor found up := by
  induction up with
  | nil => simp [findAddr] at result
  | cons tag up induction =>
      unfold findAddr at result
      split at result
      · rename_i here search
        cases result
        exact .here (List.mem_of_find?_eq_some search) rfl
      · exact .above (induction result)

end DbPager
