import JobSearch.Text.Basic

/-!
# Faults of URLs
-/

namespace JobSearch.Url

/-- Why a text is not an absolute URL. -/
inductive Error where
  /-- A scheme that needs a host has none. -/
  | emptyHost
  /-- A host name cannot be written in ASCII. -/
  | invalidName
  /-- A host holds a character that no host may hold. -/
  | invalidCharacter
  /-- A port is not a number of 16 bits. -/
  | invalidPort
  /-- A host that ends in a number is no IPv4 address. -/
  | invalidIPv4
  /-- A bracketed host is no IPv6 address. -/
  | invalidIPv6
  /-- The text has no scheme. -/
  | noScheme
  deriving DecidableEq, Repr

/-- The error in words. -/
def Error.message : Error → Text
  | .emptyHost => "empty host".toList
  | .invalidName => "invalid international domain name".toList
  | .invalidCharacter => "invalid domain character".toList
  | .invalidPort => "invalid port number".toList
  | .invalidIPv4 => "invalid IPv4 address".toList
  | .invalidIPv6 => "invalid IPv6 address".toList
  | .noScheme => "relative URL without a base".toList

end JobSearch.Url
