import DbPager.Tags.Collections
import DbPager.Tags.Functions
import DbPager.Tags.Services

/-!
# The interpreter

`tag::execute` is a virtual method: every class of tags brings its own, and
all of them may call it on other tags.  A bound on the depth of these calls
makes the model total; running out of it is an outcome of its own, so that
no result can be mistaken for a result of the program.
-/

namespace DbPager

open Effect

variable {W : Type}

/-- The virtual call: the `execute` method of the tag's class. -/
def dispatch (interp : Interp W) (self : Loc) (caller : Option Loc) :
    M W Unit :=
  match self.tag.kind with
  | .expression => TagExpression.execute interp self
  | .cdata => TagCdata.execute self
  | .unknown _ => TagUnknown.execute interp self caller
  | .usr _ _ | .userFunction _ => TagUsr.execute interp self
  | .function builtin => Function.execute interp self builtin
  | .module | .include => interp.executeChilds self caller
  | .var => TagVar.execute interp self caller
  | .set => TagSet.execute interp self caller
  | .map => TagMap.execute interp self caller
  | .mapSet => TagMapSet.execute interp self
  | .mapUnset => TagMapUnset.execute interp self
  | .mapElement => TagMapElement.execute interp self caller
  | .mapElements => TagMapElements.execute interp self caller
  | .mapValues => TagMapValues.execute interp self caller
  | .mapFromJson => TagMapFromJson.execute interp self caller
  | .mapToJson => TagMapToJson.execute interp self
  | .list => TagList.execute interp self caller
  | .listAdd => TagListAdd.execute interp self
  | .listRemove => TagListRemove.execute interp self
  | .listElement => TagListElement.execute interp self caller
  | .listElements => TagListElements.execute interp self caller
  | .listFromJson => TagListFromJson.execute interp self caller
  | .try => TagTry.execute interp self caller
  | .catch => pure ()
  | .throw => TagThrow.execute interp self caller
  | .case => TagCase.execute interp self caller
  | .switch => TagSwitch.execute interp self caller
  | .while => TagWhile.execute interp self caller
  | .split => TagSplit.execute interp self caller
  | .substr => TagSubstr.execute interp self caller
  | .regexp => TagRegexp.execute interp self caller
  | .tag _ => TagTag.execute interp self caller
  | .call => TagCall.execute interp self
  | .execute => TagExecute.execute interp self
  | .read => TagRead.execute interp self caller
  | .write => TagWrite.execute interp self caller
  | .locale => TagLocale.execute interp self caller
  | .system => TagSystem.execute interp self caller
  | .delete => TagDelete.execute interp self caller
  | .rename => TagRename.execute interp self caller
  | .log => TagLog.execute interp self caller
  | .http => TagHttp.execute interp self caller
  | .async => TagAsync.execute interp self caller
  | .pgsqlDatabase => Pgsql.TagDatabase.execute interp self caller
  | .pgsqlTransaction => Pgsql.TagTransaction.execute interp self caller
  | .pgsqlQuery => Pgsql.TagQuery.execute interp self caller
  | .sqliteDatabase => Sqlite.TagDatabase.execute interp self caller
  | .sqliteTransaction => Sqlite.TagTransaction.execute interp self caller
  | .sqliteQuery => Sqlite.TagQuery.execute interp self caller
  | .odbcDatabase => Odbc.TagDatabase.execute interp self caller
  | .odbcTransaction => Odbc.TagTransaction.execute interp self caller
  | .odbcQuery => Odbc.TagQuery.execute interp self caller
  | .redisConnection => Redis.TagConnection.execute interp self caller
  | .redisQuery => Redis.TagQuery.execute interp self caller
  | .bdbStorage => Bdb.TagStorage.execute interp self caller
  | .bdbGet => Bdb.TagGet.execute interp self caller
  | .bdbSet => Bdb.TagSet.execute interp self caller
  | .bdbFind => Bdb.TagFind.execute interp self caller
  | .bdbDelete => Bdb.TagDelete.execute interp self caller
  | .mongoDatabase => Mongo.TagDatabase.execute interp self caller
  | .mongoQuery => Mongo.TagQuery.execute interp self caller
  | .mongoInsert => Mongo.TagInsert.execute interp self caller
  | .mongoUpdate => Mongo.TagUpdate.execute interp self
  | .mongoDelete => Mongo.TagDelete.execute interp self caller
  | .mongoParam => Mongo.TagParam.execute interp self
  | .ldapConnection => Ldap.TagConnection.execute interp self caller
  | .ldapBind => Ldap.TagBind.execute interp self caller
  | .ldapSearch => Ldap.TagSearch.execute interp self caller
  | .mqttConnection => Mqtt.TagConnection.execute interp self caller
  | .mqttPub => Mqtt.TagPub.execute interp self caller
  | .mqttSub => Mqtt.TagSub.execute interp self
  | .xsltTransform => Xslt.TagTransform.execute interp self caller
  | .xsltTransformJson => Xslt.TagTransformJson.execute interp self caller
  | .javascript => TagJavascript.execute interp self caller

/-- Expressions are evaluated with functions that create tags and run them. -/
def Interp.ofRun (outside : Outside W) (budget : Nat)
    (run : Loc → Option Loc → M W Unit) : Interp W :=
  { outside, budget, run
    evaluate := fun scope text =>
      Evaluator.evaluate outside (Evaluator.executeFunction outside run scope)
        text }

/-- `tag::execute`, with a bound on the depth of nested calls. -/
def execute (outside : Outside W) : Nat → Loc → Option Loc → M W Unit
  | 0, _, _ => Prog.halt .timeout
  | depth + 1, self, caller =>
      dispatch (Interp.ofRun outside depth (execute outside depth)) self caller

end DbPager
