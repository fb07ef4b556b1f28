import LogTemplate.Digest

/-!
# Identifiers

Templates and services are identified by digests of their texts, which are the same on every run.
The identifier of a template within a service keeps the same text learned for two services apart.
-/

namespace LogTemplate.Id

/-- The identifier of a template. -/
def ofTemplate (text : Text) : Text := text.digest

/-- The identifier of a template within a service. -/
def inService (text service : Text) : Text := Text.digest (service ++ text)

/-- The identifier of a service. -/
def ofService (name : Text) : Text := name.digest

end LogTemplate.Id
