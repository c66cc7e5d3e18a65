import ModalRust.Text

/-!
# Names derived from an entrypoint

The object tag, the attributes of the deploy wrapper and the inline secret are all named
after the entrypoint. Each name goes through a sanitizer that keeps some characters and
turns the others into underscores, so different entrypoints may share it.
-/

namespace ModalRust.Provision

/-- The dispatch callable that all entrypoints share, `WRAPPER_CALLABLE`. -/
def wrapperCallable : Text := "handler".toList

/-- The same callable of the deploy wrapper, `DEPLOY_WRAPPER_CALLABLE`. -/
def deployWrapperCallable : Text := "handler".toList

/-- The characters that an object tag keeps. -/
def tagChar (c : Char) : Char :=
  if c.isAlphanum || c == '_' || c == '-' || c == '.' then c else '_'

/-- The characters that an attribute keeps: those of a Python identifier. -/
def attrChar (c : Char) : Char := if c.isAlphanum || c == '_' then c else '_'

/-- `sanitize_object_tag`. -/
def sanitizeObjectTag (entrypoint : Text) : Text :=
  let tag := entrypoint.map tagChar
  if tag.isEmpty then wrapperCallable else tag

/-- The sanitized name within an attribute. -/
def sanitized (entrypoint : Text) : Text := entrypoint.map attrChar

/-- `web_endpoint_attr`. -/
def webEndpointAttr (entrypoint : Text) : Text := "web_".toList ++ sanitized entrypoint

/-- `web_server_attr`. -/
def webServerAttr (entrypoint : Text) : Text := "web_server_".toList ++ sanitized entrypoint

/-- `inline_secret_name`. -/
def inlineSecretName (appName objectTag : Text) : Text :=
  "modal-rust-inline-env-".toList ++ appName ++ "-".toList ++ objectTag

/-- Different entrypoints with one tag. -/
example : sanitizeObjectTag "a b".toList = sanitizeObjectTag "a_b".toList := by decide

end ModalRust.Provision
