import Admission.Review.Basic
import Admission.Text.Utf8

/-! The files of a certificate and of its key. -/

set_option autoImplicit false

namespace Admission

inductive FileError where
  | notFound
  | notADirectory

def FileError.message : FileError → String
  | .notFound => "No such file or directory (os error 2)"
  | .notADirectory => "Not a directory (os error 20)"

inductive CertificateError where
  | unreadable (path : String) (error : FileError)
  | keyFormat

def CertificateError.message : CertificateError → String
  | .unreadable path error => "failed to read from file \x60" ++ path ++ "\x60: " ++ error.message
  | .keyFormat => "private key format not supported"

namespace Certificate

abbrev Pair := Bytes × Bytes

def keyMark : String :=
  "PRIVATE KEY-----"

def countKeys (text : String) : Nat :=
  ((text.splitOn "\n").filter fun line =>
    "-----BEGIN ".isPrefixOf line && (line.splitOn keyMark).length = 2).length

/-- Read the certificate and then the key, of which there must be one. -/
def load (files : String → Except FileError Bytes) (certificate key : String) :
    Except CertificateError Pair := do
  let certificate ← (files certificate).mapError (.unreadable certificate)
  let keyBytes ← (files key).mapError (.unreadable key)
  if countKeys (Text.ofUtf8Lossy keyBytes) = 1 then .ok (certificate, keyBytes)
  else .error .keyFormat

def failure (certificate key : String) (error : CertificateError) : String :=
  "error loading the certificate " ++ certificate ++ " and the key " ++ key ++ ": "
    ++ error.message

end Certificate

end Admission
