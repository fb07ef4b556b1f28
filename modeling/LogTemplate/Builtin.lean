import LogTemplate.Settings

/-!
# Built-in settings

The settings that are used when none are given: common tags of log messages, the usual timestamp
layouts, and English words that hint at tags.

* `Settings.builtin` are the settings.
-/

namespace LogTemplate

namespace Settings

/-- Texts of strings. -/
def texts (strings : List String) : List Text := strings.map String.toList

/-- A table of lists of words. -/
def wordTable (entries : List (String × List String)) : Table (List Text) :=
  Table.ofEntries (entries.map fun (key, words) => (key.toList, texts words))

/-- Tags of log messages. -/
def builtinTags : List String := [
  "regextime:time", "msgid:string", "msgtime:time", "severity:integer", "priority:integer",
  "apphost:string", "appip:ipv4", "appvendor:string", "appname:string", "srcdomain:string",
  "srczone:string", "srchost:string", "srcip:ipv4", "srcipnat:ipv4", "srcport:integer",
  "srcportnat:integer", "srcmac:mac", "srcuser:string", "srcuid:integer", "srcgroup:string",
  "srcgid:integer", "srcemail:string", "dstdomain:string", "dstzone:string", "dsthost:string",
  "dstip:ipv4", "dstipnat:ipv4", "dstport:integer", "dstportnat:integer", "dstmac:mac",
  "dstuser:string", "dstuid:integer", "dstgroup:string", "dstgid:integer", "dstemail:string",
  "protocol:string", "iniface:string", "outiface:string", "policyid:integer", "sessionid:integer",
  "object:string", "action:string", "command:string", "method:string", "status:string",
  "reason:string", "bytesrecv:integer", "bytessent:integer", "pktsrecv:integer",
  "pktssent:integer", "duration:integer", "multiline:multiline"]

/-- Timestamp layouts: system log, ISO 8601, `ctime`, plain date and time, and access log. -/
def builtinFormats : List (String × List String) := [
  ("1", ["Jan _2 15:04:05", "Jan 02 15:04:05"]),
  ("2", ["2006-01-02", "2006-01-02T15:04:05", "2006-01-02T15:04:05Z",
    "2006-01-02T15:04:05±07:00", "2006-01-02T15:04:05.000Z", "2006-01-02T15:04:05.000±07:00",
    "2006-01-02T15:04:05.000000Z", "2006-01-02T15:04:05.000000±07:00"]),
  ("3", ["Mon Jan _2 15:04:05 2006"]),
  ("4", ["2006-01-02 15:04:05", "2006/01/02 15:04:05", "2006-01-02 15:04:05.000"]),
  ("5", ["02/Jan/2006:15:04:05 ±0700"])]

/-- Regular expressions that verify timestamps. -/
def builtinRegexes : List (String × String) := [
  ("1", "[A-Za-z]\x7b3\x7d\\s+\\d\x7b1,2\x7d \\d\x7b2\x7d:\\d\x7b2\x7d:\\d\x7b2\x7d"),
  ("4", "\\d\x7b4\x7d[-/]\\d\x7b2\x7d[-/]\\d\x7b2\x7d " ++
    "\\d\x7b2\x7d:\\d\x7b2\x7d:\\d\x7b2\x7d(\\.\\d\x7b3\x7d)?")]

/-- Words that identify a tag in front of a value. -/
def builtinKeywords : List (String × List String) := [
  ("srcip", ["source", "from", "client"]),
  ("dstip", ["destination", "dest", "target"]),
  ("srcuser", ["user", "username", "login", "account"]),
  ("action", ["accept", "accepted", "deny", "denied", "drop", "dropped", "allow", "allowed",
    "block", "blocked"]),
  ("status", ["success", "successful", "fail", "failed", "failure", "error", "ok"]),
  ("method", ["get", "post", "put", "delete", "head"]),
  ("duration", ["duration", "elapsed"]),
  ("sessionid", ["session"]),
  ("protocol", ["protocol", "proto"])]

/-- Candidate tags for a value behind a word. -/
def builtinPrekeys : List (String × List String) := [
  ("from", ["srcip", "srchost", "srcemail"]),
  ("to", ["dstip", "dsthost", "dstemail"]),
  ("port", ["srcport", "dstport"]),
  ("user", ["srcuser"]),
  ("uid", ["srcuid"]),
  ("gid", ["srcgid"]),
  ("pid", ["sessionid"]),
  ("session", ["sessionid"]),
  ("src", ["srcip"]),
  ("dst", ["dstip"]),
  ("sport", ["srcport"]),
  ("dport", ["dstport"]),
  ("smac", ["srcmac"]),
  ("dmac", ["dstmac"]),
  ("proto", ["protocol"]),
  ("host", ["srchost"]),
  ("status", ["status"]),
  ("reason", ["reason"])]

/-- The built-in settings. -/
def builtin : Settings where
  tags := texts builtinTags
  formats := wordTable builtinFormats
  regexes := Table.ofEntries (builtinRegexes.map fun (key, regex) => (key.toList, regex.toList))
  keywords := wordTable builtinKeywords
  prekeys := wordTable builtinPrekeys

end Settings

end LogTemplate
