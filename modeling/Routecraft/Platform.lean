/-!
# The platform's class names

The classes of the platform that descriptors and generated code mention by name, and the part of a
class name behind its package.
-/

namespace Routecraft.Platform

def object : String := "lang.Object"
def string : String := "lang.String"
def classClass : String := "lang.Class"
def type : String := "lang.Type"

@[match_pattern] def optional : String := "util.Optional"
@[match_pattern] def list : String := "util.List"
def set : String := "util.Set"
@[match_pattern] def map : String := "util.Map"

def inputStream : String := "io.InputStream"
def filePath : String := "io.Path"

def context : String := "daedalus.runtime.Context"
def value : String := "daedalus.runtime.Value"
def body : String := "daedalus.runtime.Body"
def fileUpload : String := "daedalus.runtime.FileUpload"
def statusCode : String := "daedalus.runtime.StatusCode"
@[match_pattern] def mediaType : String := "daedalus.runtime.MediaType"
def router : String := "daedalus.runtime.Router"
def route : String := "daedalus.runtime.Route"
def provider : String := "daedalus.runtime.Provider"
def handler : String := "daedalus.runtime.Handler"
def installer : String := "daedalus.runtime.Installer"
@[match_pattern] def reified : String := "daedalus.runtime.Reified"

/-- The part of a name behind its last dot. -/
def simpleName (name : String) : String :=
  String.ofList (name.toList.reverse.takeWhile (· != '.')).reverse

end Routecraft.Platform
