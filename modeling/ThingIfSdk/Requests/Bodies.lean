import ThingIfSdk.Requests.Stages

/-!
# The pieces of request bodies

What the append chains of the request functions append, as lists of pieces.
-/

namespace ThingIfSdk

open ByteText JsonText

variable {σ : Type}

def openBrace : Bytes := ascii "\x7b"
def closeBrace : Bytes := ascii "\x7d"

def tokenPieces (kii : Kii σ) : List (List Bytes) :=
  [[openBrace],
    memberPieces (ascii "grant_type") (ascii "client_credentials") false true,
    memberPieces (ascii "client_id") kii.appId true true,
    memberPieces (ascii "client_secret") kii.appKey true true,
    [closeBrace]]

theorem tokenBody_appends (sdk : Sdk σ) (kii : Kii σ) :
    List.Forall₂ (Appends sdk) (tokenBody sdk kii) (tokenPieces kii) :=
  .cons (appends_body sdk _) (.cons (appends_keyValueString sdk _ _ _)
    (.cons (appends_keyValueString sdk _ _ _) (.cons (appends_keyValueString sdk _ _ _)
      (.cons (appends_body sdk _) .nil))))

def onboardPieces (idKey : Bytes) (args : OnboardArgs) : List (List Bytes) :=
  [[openBrace],
    memberPieces idKey args.id false true,
    memberPieces (ascii "thingPassword") args.password true true,
    optionalPieces (ascii "thingType") args.thingType true true,
    optionalPieces (ascii "thingProperties") args.thingProperties true false,
    optionalPieces (ascii "firmwareVersion") args.firmwareVersion true true,
    optionalPieces (ascii "layoutPosition") args.layoutPosition true true,
    [closeBrace]]

theorem onboardBody_appends (sdk : Sdk σ) (idKey : Bytes) (args : OnboardArgs) :
    List.Forall₂ (Appends sdk) (onboardBody sdk idKey args) (onboardPieces idKey args) :=
  .cons (appends_body sdk _) (.cons (appends_keyValueString sdk _ _ _)
    (.cons (appends_keyValueString sdk _ _ _) (.cons (appends_keyValueStringOptional sdk _ _ _)
      (.cons (appends_keyValueObjectOptional sdk _ _ _)
        (.cons (appends_keyValueStringOptional sdk _ _ _)
          (.cons (appends_keyValueStringOptional sdk _ _ _) (.cons (appends_body sdk _) .nil)))))))

def updatePieces (key value : Bytes) : List (List Bytes) :=
  [[openBrace], memberPieces key value false true, [closeBrace]]

theorem updateBody_appends (sdk : Sdk σ) (key value : Bytes) :
    List.Forall₂ (Appends sdk) (updateBody sdk key value) (updatePieces key value) :=
  .cons (appends_body sdk _) (.cons (appends_keyValueString sdk _ _ _)
    (.cons (appends_body sdk _) .nil))

end ThingIfSdk
