import DbPager.Tags.Control

/-!
# Files, processes and the network

The tags that reach outside the server without keeping a connection open.
-/

namespace DbPager

open Effect

variable {W : Type}

/-- `ctx.get_services_provider()->get_logger()`.  A context without a
services provider gives a null pointer, and using it is not defined. -/
def logMessage (interp : Interp W) (level : LogLevel) (message : Str) :
    M W Unit := do
  let services ← Prog.read fun state : St W =>
    state.contexts.head?.any Context.services
  if services then M.io (interp.outside.system.log level message)
  else Prog.halt .fault

/-- `tag_log`. -/
def TagLog.execute (interp : Interp W) (self : Loc) (caller : Option Loc) :
    M W Unit := do
  let message ← (interp.executeChilds self caller).capture
  logMessage interp .info message

/-- `tag_read`. -/
def TagRead.execute (interp : Interp W) (self : Loc) (caller : Option Loc) :
    M W Unit := do
  interp.executeChilds self caller
  let href ← interp.getParameter self "href"
  match ← M.io (interp.outside.system.readFile (cString href)) with
  | some text => Prog.emit text
  | none =>
      Prog.throw (interp.dcl.exception
        "file \x7b0\x7d not found or read error" [href])

/-- `tag_write`. -/
def TagWrite.execute (interp : Interp W) (self : Loc) (caller : Option Loc) :
    M W Unit := do
  let buf ← (interp.executeChilds self caller).capture
  let href ← interp.getParameter self "href"
  let written ← M.io (interp.outside.system.writeFile (cString href) buf)
  Prog.when (!written)
    (Prog.throw (interp.dcl.exception "can't write to file \x7b0\x7d" [href]))

/-- `tag_delete`. -/
def TagDelete.execute (interp : Interp W) (self : Loc) (caller : Option Loc) :
    M W Unit := do
  let href ← interp.getParameter self "href"
  let removed ← M.io (interp.outside.system.remove (cString href))
  Prog.when (!removed)
    (Prog.throw (interp.dcl.exception
      "file \x7b0\x7d can't be deleted" [href]))
  interp.executeChilds self caller

/-- `tag_rename`. -/
def TagRename.execute (interp : Interp W) (self : Loc) (caller : Option Loc) :
    M W Unit := do
  let href ← interp.getParameter self "href"
  let newName ← interp.getParameter self "as"
  let renamed ← M.io
    (interp.outside.system.rename (cString href) (cString newName))
  Prog.when (!renamed)
    (Prog.throw (interp.dcl.exception
      "file \x7b0\x7d can't be renamed" [href]))
  interp.executeChilds self caller

/-- `tag_locale`. -/
def TagLocale.execute (interp : Interp W) (self : Loc) (caller : Option Loc) :
    M W Unit := do
  let domain ← interp.getParameter self "domain"
  let path ← interp.getParameter self "path"
  let locale ← interp.getParameter self "locale"
  if domain.isEmpty then
    Prog.throw (interp.dcl.exception
      "message domain (domain) is not defined" [])
  else if path.isEmpty then
    Prog.throw (interp.dcl.exception
      "base directory of the hierarchy containing message catalogs (path) is not defined"
      [])
  else
    M.withLayer do
      M.addValue interp.dcl "@LANG_DOMAIN@".toList domain
      M.addValue interp.dcl "@LANG_LOCALE@".toList locale
      M.io (interp.outside.system.registerCatalogAt domain path)
      interp.executeChilds self caller

/-- `tag_system`. -/
def TagSystem.execute (interp : Interp W) (self : Loc) (caller : Option Loc) :
    M W Unit := do
  let href ← interp.getParameter self "href"
  let args ← interp.getParameter self "parameters"
  let errstr ← Prog.tryCatch
    (do
      let input ← (interp.executeChilds self caller).capture
      let (output, errors) ←
        M.io (interp.outside.system.process href args input)
      Prog.emit output
      pure errors)
    (fun exception =>
      if exception.isStd then Prog.throw exception
      else Prog.throw (.dbp "unknown subprocess calling error".toList))
  Prog.when (!errstr.isEmpty) (Prog.throw (.dbp errstr))

/-- The parameters of `tag_http` that are not sent as headers. -/
def TagHttp.reserved : List Str :=
  ["href".toList, "method".toList, "user".toList, "password".toList,
    "certificate".toList, "private-key".toList, "ca-certificate".toList,
    "certificate-data".toList, "private-key-data".toList,
    "ca-certificate-data".toList]

/-- `tag_http`.  The headers are sent with the text of their parameters, not
with the value of the expressions. -/
def TagHttp.execute (interp : Interp W) (self : Loc) (caller : Option Loc) :
    M W Unit := do
  let ready ← M.io interp.outside.system.curlInit
  Prog.when (!ready)
    (Prog.throw (.dbp "can't initialize cURL library".toList))
  let href ← interp.getParameter self "href"
  let user ← interp.getParameter self "user"
  let password ← interp.getParameter self "password"
  let certificate ← interp.getParameter self "certificate"
  let privateKey ← interp.getParameter self "private-key"
  let caCertificate ← interp.getParameter self "ca-certificate"
  let certificateData ← interp.getParameter self "certificate-data"
  let privateKeyData ← interp.getParameter self "private-key-data"
  let caCertificateData ← interp.getParameter self "ca-certificate-data"
  let method ← interp.getParameter self "method"
  let content ← (interp.executeChilds self caller).capture
  let call : HttpCall :=
    { href, user, password, certificate, privateKey, caCertificate,
      certificateData, privateKeyData, caCertificateData
      method := if method.isEmpty then "GET".toList else upName method
      content
      headers := self.tag.params.filter fun param =>
        !TagHttp.reserved.contains param.1 }
  match ← M.io (interp.outside.system.curlPerform call) with
  | .error message =>
      Prog.throw (interp.dcl.exception "http request failed: \x7b0\x7d"
        [message])
  | .ok (code, body) =>
      if code ≥ 400 then Prog.throw (.dbp body) else Prog.emit body

end DbPager
