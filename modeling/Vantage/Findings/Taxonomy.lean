import Vantage.Lib.Text

/-!
# Canonical vulnerability classes

Engines label issues in their own words; every observation is mapped to one
class, first of all through its CWE identifiers.
-/

namespace Vantage.Findings.Taxonomy

structure VulnClass where
  key : String
  title : String
  cwes : List ℤ
  owasp2021 : List String
deriving DecidableEq, Repr

def a01 : String := "A01:2021-Broken Access Control"
def a02 : String := "A02:2021-Cryptographic Failures"
def a03 : String := "A03:2021-Injection"
def a04 : String := "A04:2021-Insecure Design"
def a05 : String := "A05:2021-Security Misconfiguration"
def a06 : String := "A06:2021-Vulnerable and Outdated Components"
def a07 : String := "A07:2021-Identification and Authentication Failures"
def a08 : String := "A08:2021-Software and Data Integrity Failures"
def a09 : String := "A09:2021-Security Logging and Monitoring Failures"
def a10 : String := "A10:2021-Server-Side Request Forgery"

def other : String := "other"

def classes : List VulnClass :=
  [ ⟨"xss", "Cross-Site Scripting", [79, 80, 83, 87], [a03]⟩,
    ⟨"sql_injection", "SQL Injection", [89, 564], [a03]⟩,
    ⟨"nosql_injection", "NoSQL Injection", [943], [a03]⟩,
    ⟨"command_injection", "OS Command Injection", [77, 78], [a03]⟩,
    ⟨"code_injection", "Code Injection", [94, 95], [a03]⟩,
    ⟨"template_injection", "Server-Side Template Injection", [1336], [a03]⟩,
    ⟨"ldap_injection", "LDAP Injection", [90], [a03]⟩,
    ⟨"xpath_injection", "XPath Injection", [643], [a03]⟩,
    ⟨"header_injection", "HTTP Header Injection", [93, 113], [a03]⟩,
    ⟨"path_traversal", "Path Traversal", [22, 23, 35, 36], [a01]⟩,
    ⟨"ssrf", "Server-Side Request Forgery", [918], [a10]⟩,
    ⟨"xxe", "XML External Entity Processing", [611, 776], [a05]⟩,
    ⟨"open_redirect", "Open Redirect", [601], [a01]⟩,
    ⟨"csrf", "Cross-Site Request Forgery", [352], [a01]⟩,
    ⟨"broken_object_authz", "Broken Object Level Authorization", [639], [a01]⟩,
    ⟨"broken_access_control", "Broken Access Control", [284, 285, 862, 863], [a01]⟩,
    ⟨"authentication", "Authentication Weakness", [287, 306, 307, 521, 1391], [a07]⟩,
    ⟨"session_management", "Session Management Weakness", [384, 613], [a07]⟩,
    ⟨"insecure_cookie", "Insecure Cookie Attributes", [614, 1004, 1275], [a05]⟩,
    ⟨"secret_exposure", "Exposed Secret or Credential", [798, 312, 540], [a07]⟩,
    ⟨"information_disclosure", "Information Disclosure", [200, 209, 359, 532, 538], [a01]⟩,
    ⟨"directory_listing", "Directory Listing", [548], [a05]⟩,
    ⟨"debug_exposure", "Debug or Diagnostic Interface Exposed", [215, 489], [a05]⟩,
    ⟨"missing_security_header", "Missing or Weak Security Header", [693], [a05]⟩,
    ⟨"clickjacking", "Clickjacking", [1021], [a04]⟩,
    ⟨"cors_misconfiguration", "CORS Misconfiguration", [942, 346], [a05]⟩,
    ⟨"tls_weakness", "TLS / Transport Weakness", [295, 319, 326, 327], [a02]⟩,
    ⟨"vulnerable_component", "Vulnerable or Outdated Component", [937, 1035, 1104], [a06]⟩,
    ⟨"insecure_deserialization", "Insecure Deserialization", [502], [a08]⟩,
    ⟨"unrestricted_upload", "Unrestricted File Upload", [434], [a04]⟩,
    ⟨"security_misconfiguration", "Security Misconfiguration", [16, 1188], [a05]⟩,
    ⟨other, "Other", [], []⟩ ]

/-- `BY_KEY`; the last class is the fallback. -/
def byKey (key : String) : Option VulnClass := classes.find? (·.key = key)

/-- No identifier is mapped twice, so the first class that has it is the only one. -/
def classForCwe (cwe : ℤ) : Option VulnClass := classes.find? (cwe ∈ ·.cwes)

def otherClass : VulnClass := ⟨other, "Other", [], []⟩

def classify (cwes : List ℤ) (hint : String) : VulnClass :=
  match cwes.findSome? classForCwe with
  | some found => found
  | none => (byKey hint).getD otherClass

theorem nodup_cwes : (classes.flatMap VulnClass.cwes).Nodup := by decide +kernel

theorem nodup_keys : (classes.map VulnClass.key).Nodup := by decide +kernel

theorem otherClass_mem : otherClass ∈ classes := by decide +kernel

/-- Whatever the identifiers and the hint, the answer is a class of the table. -/
theorem classify_mem (cwes : List ℤ) (hint : String) : classify cwes hint ∈ classes := by
  unfold classify
  cases hfound : cwes.findSome? classForCwe with
  | some found =>
      obtain ⟨cwe, -, hcwe⟩ := List.exists_of_findSome?_eq_some hfound
      exact List.mem_of_find?_eq_some hcwe
  | none =>
      cases hkey : byKey hint with
      | some found => exact List.mem_of_find?_eq_some hkey
      | none => exact otherClass_mem

/-- A class of the table is determined by its key. -/
theorem eq_of_key {c d : VulnClass} (hc : c ∈ classes) (hd : d ∈ classes) (h : c.key = d.key) :
    c = d := List.inj_on_of_nodup_map nodup_keys hc hd h

theorem key_no_bar : ∀ c ∈ classes, '|' ∉ c.key.toList := by decide +kernel

end Vantage.Findings.Taxonomy
