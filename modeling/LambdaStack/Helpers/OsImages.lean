/-
# Names of distributions

`os_images`: the distribution an image is of, read off the offer or the name of
the image.
-/

import LambdaStack.Data.Exception

namespace LambdaStack

/-- `part in text`. -/
def isSubstring (part text : String) : Bool :=
  text.toList.tails.any fun tail => part.toList.isPrefixOf tail

/-- `expected_indicators`. -/
def expectedIndicators : List (String × String) :=
  [("ubuntu", "ubuntu"), ("rhel", "rhel"), ("redhat", "rhel"), ("centos", "centos")]

/-- The distribution of the first indicator the text has. -/
def distroOf (text : String) : Option String :=
  (expectedIndicators.find? fun indicator => isSubstring indicator.1 text).map Prod.snd

/-- `get_os_distro_normalized`; a custom name has no distribution. -/
def getOsDistroNormalized (lower : String → String) (vmDoc : Val) : Res Val := do
  let provider ← vmDoc.getAttr "provider"
  if provider.pyEq (.str "azure") then do
    let offer ← attrPath vmDoc ["specification", "storage_image_reference", "offer"]
    let offer ← offer.asStr
    .ok (((distroOf (lower offer)).map Val.str).getD .null)
  else if provider.pyEq (.str "aws") then do
    let name ← attrPath vmDoc ["specification", "os_full_name"]
    let name ← name.asStr
    .ok (((distroOf (lower name)).map Val.str).getD .null)
  else .ok .null

end LambdaStack
