import IndyNode.Authorize.Constraints
import IndyNode.Authorize.Actions

/-! `auth_map.py`: the default rule for every action. -/
namespace IndyNode.Authorize
open AndOrTree (leaf any never)

/-- `edit_role_actions[role_from][role_to]`. -/
def editRole (roleFrom roleTo : Role) : AuthAction := .edit "1" "role" roleFrom.code roleTo.code true

def addRole (role : Role) : AuthAction := .add "1" "role" role.code true

def addAny (txnType : String) : AuthAction := .add txnType "*" "*" true

def editAny (txnType field : String) : AuthAction := .edit txnType field "*" "*" true

def keyRotation : AuthAction := editAny "1" "verkey"
def addingNewNode : AuthAction := .add "0" "services" "['VALIDATOR']" true
def addingNewNodeWithEmptyServices : AuthAction := .add "0" "services" "[]" true
def demoteNode : AuthAction := .edit "0" "services" "['VALIDATOR']" "[]" true
def promoteNode : AuthAction := .edit "0" "services" "[]" "['VALIDATOR']" true
def startUpgrade : AuthAction := .add "109" "action" "start" true
def cancelUpgrade : AuthAction := .edit "109" "action" "start" "cancel" true
def poolRestart : AuthAction := .add "118" "action" "*" true
def addNewTrustee : AuthAction := addRole .trustee
def addNewSteward : AuthAction := addRole .steward
def addNewEndorser : AuthAction := addRole .endorser
def addNewNetworkMonitor : AuthAction := addRole .networkMonitor
def addNewIdentityOwner : AuthAction := addRole .identityOwner
def txnAuthorAgreement : AuthAction := addAny "4"
def editTxnAuthorAgreement : AuthAction := editAny "4" "*"
def disableTxnAuthorAgreement : AuthAction := addAny "8"
def txnAuthorAgreementAml : AuthAction := addAny "5"
def addAttrib : AuthAction := addAny "100"
def editAttrib : AuthAction := editAny "100" "*"
def addSchema : AuthAction := addAny "101"
def editSchema : AuthAction := editAny "101" "*"
def addJsonLdContext : AuthAction := addAny "200"
def editJsonLdContext : AuthAction := editAny "200" "*"
def addRichSchema : AuthAction := addAny "201"
def editRichSchema : AuthAction := editAny "201" "*"
def addRichSchemaEncoding : AuthAction := addAny "202"
def editRichSchemaEncoding : AuthAction := editAny "202" "*"
def addRichSchemaMapping : AuthAction := addAny "203"
def editRichSchemaMapping : AuthAction := editAny "203" "*"
def addRichSchemaCredDef : AuthAction := addAny "204"
def editRichSchemaCredDef : AuthAction := editAny "204" "*"
def addRichSchemaPresDef : AuthAction := addAny "205"
def editRichSchemaPresDef : AuthAction := editAny "205" "*"
def addClaimDef : AuthAction := addAny "102"
def editClaimDef : AuthAction := editAny "102" "*"
def changeNodeIp : AuthAction := editAny "0" "node_ip"
def changeNodePort : AuthAction := editAny "0" "node_port"
def changeClientIp : AuthAction := editAny "0" "client_ip"
def changeClientPort : AuthAction := editAny "0" "client_port"
def changeBlsKey : AuthAction := editAny "0" "blskey"
def poolConfig : AuthAction := editAny "111" "action"
def authRule : AuthAction := editAny "120" "*"
def authRulesEdit : AuthAction := editAny "122" "*"
def validatorInfo : AuthAction := addAny "119"
def addRevocRegDef : AuthAction := addAny "113"
def addRevocRegEntry : AuthAction := addAny "114"
def editRevocRegDef : AuthAction := editAny "113" "*"
def editRevocRegEntry : AuthAction := editAny "114" "*"
def editFrozenLedgers : AuthAction := editAny "9" "*"
def editConfigFlag : AuthAction := editAny "130" "*"

def noOneConstraint : Constraint := never
def ownerConstraint : Constraint := leaf (anyRoleConstraint 1 true none)
def stewardOwnerConstraint : Constraint := leaf (roleConstraint .steward 1 true)
def oneTrusteeConstraint : Constraint := leaf (roleConstraint .trustee 1 false)
def threeTrusteeConstraint : Constraint := leaf (roleConstraint .trustee 3 false)

def stewardOrTrusteeConstraint : Constraint :=
  any [leaf (roleConstraint .steward 1 false),leaf (roleConstraint .trustee 1 false)]

def endorserOrStewardOrTrusteeConstraint : Constraint :=
  any [leaf (roleConstraint .trustee 1 false),leaf (roleConstraint .steward 1 false),
    leaf (roleConstraint .endorser 1 false)]

def trusteeOrOwnerSteward : Constraint :=
  any [leaf (roleConstraint .trustee 1 false),leaf (roleConstraint .steward 1 true)]

def endorserOrStewardOrTrusteeOwnerConstraint : Constraint :=
  any [leaf (roleConstraint .trustee 1 true),leaf (roleConstraint .steward 1 true),
    leaf (roleConstraint .endorser 1 true)]

def validatorInfoConstraint : Constraint :=
  any [leaf (roleConstraint .trustee 1 false),leaf (roleConstraint .steward 1 false),
    leaf (roleConstraint .networkMonitor 1 false)]

/-- The rules in the order of the map, the edits of roles last. -/
def authRules : List (AuthAction × Constraint) :=
  [(addNewTrustee,oneTrusteeConstraint),
    (addNewSteward,oneTrusteeConstraint),
    (addNewEndorser,stewardOrTrusteeConstraint),
    (addNewNetworkMonitor,stewardOrTrusteeConstraint),
    (addNewIdentityOwner,endorserOrStewardOrTrusteeConstraint),
    (keyRotation,ownerConstraint),
    (txnAuthorAgreement,oneTrusteeConstraint),
    (editTxnAuthorAgreement,oneTrusteeConstraint),
    (disableTxnAuthorAgreement,oneTrusteeConstraint),
    (txnAuthorAgreementAml,oneTrusteeConstraint),
    (addAttrib,ownerConstraint),
    (editAttrib,ownerConstraint),
    (addSchema,endorserOrStewardOrTrusteeConstraint),
    (editSchema,noOneConstraint),
    (addJsonLdContext,endorserOrStewardOrTrusteeConstraint),
    (editJsonLdContext,noOneConstraint),
    (addRichSchema,endorserOrStewardOrTrusteeConstraint),
    (editRichSchema,noOneConstraint),
    (addRichSchemaEncoding,endorserOrStewardOrTrusteeConstraint),
    (editRichSchemaEncoding,noOneConstraint),
    (addRichSchemaMapping,endorserOrStewardOrTrusteeConstraint),
    (editRichSchemaMapping,noOneConstraint),
    (addRichSchemaCredDef,endorserOrStewardOrTrusteeConstraint),
    (editRichSchemaCredDef,noOneConstraint),
    (addRichSchemaPresDef,endorserOrStewardOrTrusteeConstraint),
    (editRichSchemaPresDef,noOneConstraint),
    (addClaimDef,endorserOrStewardOrTrusteeConstraint),
    (editClaimDef,ownerConstraint),
    (addingNewNode,stewardOwnerConstraint),
    (addingNewNodeWithEmptyServices,stewardOwnerConstraint),
    (demoteNode,trusteeOrOwnerSteward),
    (promoteNode,trusteeOrOwnerSteward),
    (changeNodeIp,stewardOwnerConstraint),
    (changeNodePort,stewardOwnerConstraint),
    (changeClientIp,stewardOwnerConstraint),
    (changeClientPort,stewardOwnerConstraint),
    (changeBlsKey,stewardOwnerConstraint),
    (startUpgrade,oneTrusteeConstraint),
    (cancelUpgrade,oneTrusteeConstraint),
    (poolRestart,oneTrusteeConstraint),
    (poolConfig,oneTrusteeConstraint),
    (authRule,oneTrusteeConstraint),
    (authRulesEdit,oneTrusteeConstraint),
    (validatorInfo,validatorInfoConstraint),
    (addRevocRegDef,endorserOrStewardOrTrusteeConstraint),
    (addRevocRegEntry,endorserOrStewardOrTrusteeOwnerConstraint),
    (editRevocRegDef,ownerConstraint),
    (editRevocRegEntry,ownerConstraint),
    (editFrozenLedgers,threeTrusteeConstraint),
    (editConfigFlag,oneTrusteeConstraint),
    (editRole .trustee .trustee,ownerConstraint),
    (editRole .trustee .steward,oneTrusteeConstraint),
    (editRole .trustee .endorser,oneTrusteeConstraint),
    (editRole .trustee .networkMonitor,oneTrusteeConstraint),
    (editRole .trustee .identityOwner,oneTrusteeConstraint),
    (editRole .steward .trustee,oneTrusteeConstraint),
    (editRole .steward .steward,ownerConstraint),
    (editRole .steward .endorser,oneTrusteeConstraint),
    (editRole .steward .networkMonitor,oneTrusteeConstraint),
    (editRole .steward .identityOwner,oneTrusteeConstraint),
    (editRole .endorser .trustee,oneTrusteeConstraint),
    (editRole .endorser .steward,oneTrusteeConstraint),
    (editRole .endorser .endorser,ownerConstraint),
    (editRole .endorser .networkMonitor,oneTrusteeConstraint),
    (editRole .endorser .identityOwner,oneTrusteeConstraint),
    (editRole .networkMonitor .trustee,oneTrusteeConstraint),
    (editRole .networkMonitor .steward,oneTrusteeConstraint),
    (editRole .networkMonitor .endorser,stewardOrTrusteeConstraint),
    (editRole .networkMonitor .networkMonitor,ownerConstraint),
    (editRole .networkMonitor .identityOwner,stewardOrTrusteeConstraint),
    (editRole .identityOwner .trustee,oneTrusteeConstraint),
    (editRole .identityOwner .steward,oneTrusteeConstraint),
    (editRole .identityOwner .endorser,stewardOrTrusteeConstraint),
    (editRole .identityOwner .networkMonitor,stewardOrTrusteeConstraint),
    (editRole .identityOwner .identityOwner,ownerConstraint)]

def keyed (rules : List (AuthAction × Constraint)) : List (String × Constraint) :=
  rules.map fun rule => (rule.1.actionId,rule.2)

def authMap : List (String × Constraint) := keyed authRules

end IndyNode.Authorize
